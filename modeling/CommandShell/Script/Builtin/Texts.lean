import CommandShell.Script.Builtin.Answer
import CommandShell.Script.Pattern
import CommandShell.Text.Format

/-!
# Commands that write and read texts

`echo` writes its operands with escapes, `printf` writes them by a format, and `read` reads a line
and divides it over variables.
-/

namespace CommandShell
namespace Script
namespace Builtin

/-! ## Writing -/

/-- The escapes in what is written. -/
def escapes : Escapes.Dialect := { zeroFirst := true, ends := true }

/-- Writes the operands. The option `-n` leaves out the newline. -/
def echo : Builtin := fun operands => do
  let (newline, operands) := match operands with
    | "-n" :: rest => (false, rest)
    | operands => (true, operands)
  let e := Escapes.expand escapes (String.intercalate " " operands)
  return { output := e.bytes ++ if newline && e.stop?.isNone then [0x0A] else [] }

/-- What is said about an operand. -/
def formatRemark (r : Format.Remark) (operand : String) : Option (List UInt8) :=
  match r with
  | .fit .partly => some (Utf8.encode (operand ++ ": not completely converted"))
  | .fit .notAtAll => some (Utf8.encode (operand ++ ": expected numeric value"))
  | .fit .outOfRange => some (Utf8.encode (operand ++ ": Numerical result out of range"))
  | .fit .whole | .moreCharacters _ | .badWidth | .badPrecision => none

/-- How formats are written. -/
def formatStyle : Format.Style where
  formatEscapes := { loose := true }
  textEscapes := escapes
  flagChars := "#-+ 0".toList
  lengthChars := []
  precision := ⟨53, 1023⟩
  loneMark := true
  allows d := match d.letter? with
    | some letter => "bcsdiouxXaAeEfFgG".toList.contains letter
    | none => false
  badDirective d := match d.letter? with
    | some _ => String.ofList d.text ++ ": invalid directive"
    | none => "missing format character"
  remark := formatRemark
  failure := mistaken
  endCode? := none

/-- Writes the operands by a format. -/
def printf : Builtin := fun operands => do
  let g ← readOptions [] operands
  match g.operands with
  | [] => fail "usage: printf format [arg ...]"
  | format :: operands =>
    let w := Format.write formatStyle format operands
    let mut output : List (List UInt8) := []
    for part in w.output do
      match part with
      | .inl bytes => output := bytes :: output
      | .inr text => complain (Utf8.decode text)
    return { output := output.reverse.flatten, status := w.code }

/-! ## Reading -/

/-- A line that is read: its characters in reverse, how many bytes were taken for it, and whether
the input ended first. -/
structure Line where
  marks : List Mark := []
  taken : Nat := 0
  ended : Bool := true

/-- Reads the characters of a line from pieces of input. A backslash quotes the next character and
takes a newline away, unless the line is `raw`. -/
def readLine (raw : Bool) (escaped : Bool) (l : Line) : List Utf8.Piece → Line
  | [] => l
  | piece :: rest =>
    let c := piece.char
    let l := { l with taken := l.taken + piece.bytes.length }
    if c = '\x00' then readLine raw escaped l rest
    else if escaped then
      if c = '\n' then readLine raw false l rest
      else readLine raw false { l with marks := ⟨c, true⟩ :: l.marks } rest
    else if c = '\\' ∧ !raw then readLine raw true l rest
    else if c = '\n' then { l with ended := false }
    else readLine raw false { l with marks := ⟨c, false⟩ :: l.marks } rest

/-- Divides a line over at most `most` texts, and one for the rest. The last one is taken without
what ends it if there is only one left, and otherwise as it stands, without blanks at its end. -/
def divideLine (separators : List Char) : (most : Nat) → List Mark → List (List Mark)
  | most, marks =>
    let isSeparator (m : Mark) : Bool := !m.quoted && separators.contains m.char
    let isBlank (m : Mark) : Bool :=
      isSeparator m && (m.char == ' ' || m.char == '\t' || m.char == '\n')
    let marks := marks.dropWhile isBlank
    let first := marks.takeWhile fun m => !isSeparator m
    let after := (marks.drop first.length).dropWhile isBlank
    let rest := match after with
      | m :: rest => if isSeparator m then rest.dropWhile isBlank else after
      | [] => []
    if marks.isEmpty then []
    else match most with
      | 0 =>
        if rest.isEmpty then [first] else [(marks.reverse.dropWhile isBlank).reverse]
      | most + 1 => first :: divideLine separators most rest

/-- Reads a line into variables. The end of the input is a failure. -/
def read : Builtin := fun operands => do
  let g ← readOptions [('p', true), ('r', false)] operands
  if g.operands.isEmpty then fail "arg count"
  let env ← get
  let input := available env 0
  let line := readLine (g.has 'r') false {} (Utf8.pieces input)
  leave 0 (input.drop line.taken)
  let parts := divideLine env.separators (g.operands.length - 1) line.marks.reverse
  for (name, place) in g.operands.zipIdx do
    if !Word.isName name then fail (name ++ ": bad variable name")
    assign name (String.ofList ((parts.getD place []).map Mark.char)) false
  return .ofStatus (if line.ended then 1 else 0)

end Builtin
end Script
end CommandShell
