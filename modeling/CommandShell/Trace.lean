import CommandShell.Input

/-!
# Traces

What a session does, in order. A trace also holds what nobody outside can see: which items were
read, what was about to be done, and which write was refused. `seen` keeps what an
observer of the streams and of the launches sees, and joins writes that follow each other on one
stream, since their boundaries cannot be seen either.
-/

namespace CommandShell

/-- The two output streams. -/
inductive Stream where
  | out
  | err
deriving DecidableEq

/-- One thing that a session does. -/
inductive Event where
  /-- A prompt was about to be written. -/
  | prompting
  /-- Bytes were accepted by a stream. -/
  | wrote (stream : Stream) (bytes : List UInt8)
  /-- A write failed. -/
  | refused (stream : Stream) (fault : Fault)
  /-- A stream was flushed, with a fault if that failed. -/
  | flushed (stream : Stream) (fault? : Option Fault)
  /-- Items were taken from the input. -/
  | read (items : List Input.Item)
  /-- A command was about to run. -/
  | entered (args : List String)
  /-- A program was launched in a directory, and wrote this to the two streams. -/
  | launched (args : List String) (directory : String) (output : List (Stream × List UInt8))
deriving DecidableEq

/-- A sequence of events. -/
abbrev Trace := List Event

namespace Trace

/-- The event shows outside the session. -/
def isSeen : Event → Bool
  | .wrote _ bytes => !bytes.isEmpty
  | .flushed _ _ => true
  | .launched _ _ _ => true
  | .prompting => false
  | .refused _ _ => false
  | .read _ => false
  | .entered _ => false

/-- Puts an event before others, as one event with the first of them if both are writes to one
stream. -/
def joinCons : Event → Trace → Trace
  | .wrote s bytes, .wrote t more :: rest =>
    if s = t then .wrote s (bytes ++ more) :: rest else .wrote s bytes :: .wrote t more :: rest
  | e, rest => e :: rest

/-- What an observer sees of a trace. -/
def seen (trace : Trace) : Trace := (trace.filter isSeen).foldr joinCons []

/-- The bytes that arrive at both streams, from the session and from the programs it launched, in
order. -/
def delivered (trace : Trace) : List (Stream × List UInt8) :=
  trace.flatMap fun
    | .wrote s bytes => [(s, bytes)]
    | .launched _ _ output => output
    | _ => []

/-- The bytes of one stream among those of both. -/
def bytesOn (stream : Stream) (output : List (Stream × List UInt8)) : List UInt8 :=
  output.flatMap fun part => if part.1 = stream then part.2 else []

/-- The bytes that the session itself wrote to a stream. -/
def written (stream : Stream) (trace : Trace) : List UInt8 :=
  trace.flatMap fun
    | .wrote s bytes => if s = stream then bytes else []
    | _ => []

end Trace
end CommandShell
