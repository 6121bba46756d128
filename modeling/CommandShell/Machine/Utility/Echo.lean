import CommandShell.Machine.Options
import CommandShell.Text.Format
import CommandShell.Text.Quotation

/-!
# Utilities that write texts

`echo` writes its operands, and `printf` writes them by a format.
-/

namespace CommandShell
namespace Utility

/-- The escapes that `echo` expands if it is asked to. -/
def echoEscapes : Escapes.Dialect := { zeroFirst := true, hexadecimal := true, ends := true }

/-- The letters of an option of `echo`: a hyphen and then only the letters `n`, `e` and `E`. -/
def echoOption? (arg : String) : Option (List Char) :=
  match arg.toList with
  | '-' :: letter :: rest =>
    if (letter :: rest).all fun c => c == 'n' || c == 'e' || c == 'E' then some (letter :: rest)
    else none
  | _ => none

/-- What `echo` writes, for the settings so far of a newline at the end and of escapes. -/
def echo (newline escapes : Bool) : List String → List UInt8
  | [] => if newline then [0x0A] else []
  | arg :: rest =>
    match echoOption? arg with
    | some letters =>
      let escapes := letters.foldl
        (fun now c => if c = 'e' then true else if c = 'E' then false else now) escapes
      echo (newline && !letters.contains 'n') escapes rest
    | none =>
      let text := String.intercalate " " (arg :: rest)
      let e := if escapes then Escapes.expand echoEscapes text else ⟨Utf8.encode text, none⟩
      e.bytes ++ if newline && e.stop?.isNone then [0x0A] else []

/-- The escapes of formats. -/
def formatEscapes : Escapes.Dialect :=
  { hexadecimal := true, quotationMark := true, universal := true, ends := true, strict := true }

/-- The letters of directives that go with the flags, the width and the precision. -/
def allows (d : Format.Directive) : Bool :=
  let without (flags : List Char) (letters : String) (c : Char) : Bool :=
    d.flags.any flags.contains && letters.toList.contains c
  match d.letter? with
  | none => false
  | some 'b' | some 'q' => d.text.length = 2
  | some letter =>
    "aAcdeEfFgGiosuxX".toList.contains letter
      && !without ['I', '\x27'] "aAceEosxX" letter
      && !without ['#'] "cdisu" letter
      && !without ['0'] "cs" letter
      && !(letter = 'c' && d.precision ≠ .absent)

/-- What is said about an operand. -/
def remark (r : Format.Remark) (operand : String) : Option (List UInt8) :=
  let quoted := Quotation.escaped operand
  match r with
  | .fit .whole => none
  | .fit .partly => some (Utf8.encode (quoted ++ ": value not completely converted"))
  | .fit .notAtAll => some (Utf8.encode (quoted ++ ": expected a numeric value"))
  | .fit .outOfRange => some (Utf8.encode (quoted ++ ": Numerical result out of range"))
  | .moreCharacters rest =>
    some (Utf8.encode "warning: " ++ rest
      ++ Utf8.encode ": character(s) following character constant have been ignored")
  | .badWidth => some (Utf8.encode ("invalid field width: " ++ quoted))
  | .badPrecision => some (Utf8.encode ("invalid precision: " ++ quoted))

/-- How formats are written. -/
def formatStyle : Format.Style where
  formatEscapes := formatEscapes
  textEscapes := { formatEscapes with zeroFirst := true }
  flagChars := "I'-+ #0".toList
  lengthChars := "lLhjtz".toList
  precision := ⟨64, 16383⟩
  loneMark := false
  allows := allows
  badDirective d := String.ofList d.text ++ ": invalid conversion specification"
  remark := remark
  failure := 1
  endCode? := some 0

/-- Writes operands by a format, and says which of them were not used. -/
def printf (s : Start) : Done :=
  let operands := match s.operands with
    | "--" :: rest => rest
    | operands => operands
  match operands with
  | [] => s.misused "missing operand"
  | format :: operands =>
    let w := Format.write formatStyle format operands
    let output := w.output.map fun
      | .inl bytes => (Stream.out, bytes)
      | .inr text => (Stream.err, Utf8.encode (s.name ++ ": ") ++ text ++ [0x0A])
    let excess := w.unused.head?.toList.map fun operand =>
      s.message ("warning: ignoring excess arguments, starting with "
        ++ Quotation.escaped operand)
    s.leave w.code (output ++ excess)

end Utility
end CommandShell
