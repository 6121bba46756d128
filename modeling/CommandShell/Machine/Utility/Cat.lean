import CommandShell.Machine.Options
import CommandShell.Text.Quotation

/-!
# Writing files

`cat` writes files one after the other. It can number lines, leave out repeated empty lines and
show characters that could not be seen.
-/

namespace CommandShell
namespace Utility
namespace Cat

/-- How the bytes are written. -/
structure Manner where
  numbers : Bool
  numbersEmpty : Bool
  squeezes : Bool
  showsEnds : Bool
  showsTabs : Bool
  showsOthers : Bool

/-- Where the writing stands: the number of the last line; whether a line has begun; how many
empty lines came before; and whether a carriage return waits for a newline. -/
structure State where
  line : Nat := 0
  inLine : Bool := false
  emptyLines : Nat := 0
  returned : Bool := false

/-- The number of a line. -/
def lineNumber (number : Nat) : List UInt8 :=
  let digits := Nat.toDigits 10 number
  Utf8.encodeChars (List.replicate (6 - digits.length) ' ' ++ digits ++ ['\t'])

/-- A byte that is shown by a circumflex and another character if it is a control character. -/
def circumflexed (b : UInt8) : List UInt8 :=
  if b < 0x20 then [0x5E, b + 0x40] else if b = 0x7F then [0x5E, 0x3F] else [b]

/-- A byte as it is shown. -/
def reveal (m : Manner) (b : UInt8) : List UInt8 :=
  if b = 0x09 then if m.showsTabs then circumflexed b else [b]
  else if !m.showsOthers then [b]
  else if 0x80 ≤ b then 0x4D :: 0x2D :: circumflexed (b - 0x80)
  else circumflexed b

/-- Writes a newline. -/
def newline (m : Manner) (s : State) : State × List UInt8 :=
  let ends := if m.showsEnds then [0x24, 0x0A] else [0x0A]
  if s.inLine then ({ s with inLine := false, emptyLines := 0 }, ends)
  else if m.squeezes && 0 < s.emptyLines then (s, [])
  else
    let s := { s with emptyLines := 1 }
    if m.numbers && m.numbersEmpty then
      ({ s with line := s.line + 1 }, lineNumber (s.line + 1) ++ ends)
    else (s, ends)

/-- Begins a line if none has begun. -/
def begin (m : Manner) (s : State) : State × List UInt8 :=
  if s.inLine then (s, [])
  else
    let s := { s with inLine := true }
    if m.numbers then ({ s with line := s.line + 1 }, lineNumber (s.line + 1)) else (s, [])

/-- Writes a byte. A carriage return is held back where it could be part of the end of a line that
is to be shown. -/
def step (m : Manner) (s : State) (b : UInt8) : State × List UInt8 :=
  let (s, before) :=
    if s.returned then
      ({ s with returned := false }, if b = 0x0A then [0x5E, 0x4D] else [0x0D])
    else (s, [])
  if b = 0x0A then
    let (s, bytes) := newline m s
    (s, before ++ bytes)
  else
    let (s, start) := begin m s
    if b = 0x0D && m.showsEnds && !m.showsOthers then
      ({ s with returned := true }, before ++ start)
    else (s, before ++ start ++ reveal m b)

/-- Writes bytes. -/
def writeAll (m : Manner) (s : State) : List UInt8 → State × List (List UInt8)
  | [] => (s, [])
  | b :: rest =>
    let (s, bytes) := step m s b
    let (s, later) := writeAll m s rest
    (s, bytes :: later)

/-- The options. -/
def choices : List Choice :=
  [⟨'b', true, some "number-nonblank", false⟩, ⟨'n', true, some "number", false⟩,
    ⟨'s', true, some "squeeze-blank", false⟩, ⟨'v', true, some "show-nonprinting", false⟩,
    ⟨'E', true, some "show-ends", false⟩, ⟨'T', true, some "show-tabs", false⟩,
    ⟨'A', true, some "show-all", false⟩, ⟨'e', true, none, false⟩, ⟨'t', true, none, false⟩,
    ⟨'u', true, none, false⟩]

/-- The manner that the options ask for. -/
def mannerOf (split : Choice.Split) : Manner :=
  let has (letters : List Char) : Bool := letters.any split.has
  { numbers := has ['n', 'b']
    numbersEmpty := !has ['b']
    squeezes := has ['s']
    showsEnds := has ['E', 'A', 'e']
    showsTabs := has ['T', 'A', 't']
    showsOthers := has ['v', 'A', 'e', 't'] }

/-- Writes the files at some paths; a hyphen stands for the input. The output is kept in
reverse. -/
def files (s : Start) (m : Manner) (state : State) (input : List UInt8) (code : Nat)
    (output : List (Stream × List UInt8)) : List String → Done
  | [] =>
    let waiting := if state.returned then [(Stream.out, [0x0D])] else []
    { s.leave code (output.reverse ++ waiting) with input }
  | path :: rest =>
    let source : Except Fault (List UInt8) := match path, s.inputFault? with
      | "-", some f => .error f
      | "-", none => .ok input
      | path, _ => s.read path
    let input := if path = "-" then [] else input
    match source with
    | .error f =>
      let text := Quotation.typedIfNeeded path ++ ": " ++ f.sentence
      files s m state input 1 (s.message text :: output) rest
    | .ok bytes =>
      let (state, written) := writeAll m state bytes
      files s m state input code ((.out, written.flatten) :: output) rest

end Cat

/-- Writes files. Without an open output nothing is done, and an input that was not open is
noticed once more at the end. -/
def cat (s : Start) : Done :=
  s.withOptions Cat.choices fun split =>
    let paths := if split.operands.isEmpty then ["-"] else split.operands
    if s.outputFault? = some .closedStream then
      s.leave 1 [s.message ("standard output: " ++ Fault.closedStream.sentence)]
    else
      let done := Cat.files s (Cat.mannerOf split) {} s.input 0 [] paths
      match s.inputFault? with
      | some f =>
        if paths.contains "-" then
          let last := s.message ("closing standard input: " ++ f.sentence)
          { done with output := done.output ++ [last] }
        else done
      | none => done

end Utility
end CommandShell
