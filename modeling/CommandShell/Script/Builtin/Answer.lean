import CommandShell.Script.Environment

/-!
# Commands of the script language

What a command of the script language itself gives back, and how it reads its options.
-/

namespace CommandShell
namespace Script

/-- What a command of the script language writes at its end, and its status. -/
structure Answer where
  output : List UInt8 := []
  status : Nat := 0

/-- A command of the script language, which is run on its operands. -/
abbrev Builtin := List String → Act Answer

namespace Answer

/-- An answer that writes a text. -/
def text (text : String) : Answer := { output := Utf8.encode text }

/-- An answer that only has a status. -/
def ofStatus (status : Nat) : Answer := { status }

end Answer

namespace Builtin

/-- Options that were given with their values, and the operands after them. -/
structure Given where
  options : List (Char × String)
  operands : List String

/-- The option was given. -/
def Given.has (g : Given) (letter : Char) : Bool := g.options.any fun entry => entry.1 == letter

/-- Reads the letters of one argument; `known` says of each letter whether it takes a value. The
value is the rest of the letters or the next argument; the last part of the answer says that this
was used up. -/
def readLetters (known : List (Char × Bool)) (next? : Option String) :
    List Char → Act (List (Char × String) × Bool)
  | [] => return ([], false)
  | letter :: rest => do
    match known.lookup letter, rest, next? with
    | none, _, _ => fail ("Illegal option -" ++ String.singleton letter)
    | some false, _, _ =>
      let (options, usesNext) ← readLetters known next? rest
      return ((letter, "") :: options, usesNext)
    | some true, [], none => fail ("No arg for -" ++ String.singleton letter ++ " option")
    | some true, [], some next => return ([(letter, next)], true)
    | some true, rest, _ => return ([(letter, String.ofList rest)], false)

/-- Reads options up to the first operand. -/
def readOptions (known : List (Char × Bool)) : List String → Act Given
  | [] => return ⟨[], []⟩
  | arg :: rest => do
    match arg.toList with
    | ['-', '-'] => return ⟨[], rest⟩
    | '-' :: letter :: letters =>
      let (options, usesNext) ← readLetters known rest.head? (letter :: letters)
      match rest, usesNext with
      | _ :: later, true =>
        let g ← readOptions known later
        return { g with options := options ++ g.options }
      | rest, _ =>
        let g ← readOptions known rest
        return { g with options := options ++ g.options }
    | _ => return ⟨[], arg :: rest⟩

/-- A text in quotes, so that a script would read it as one word: apostrophes stand between
quotation marks and everything else between apostrophes. -/
def quoted (text : String) : String :=
  let rec go : (most : Nat) → List Char → List Char
    | 0, _ => []
    | most + 1, chars =>
      let plain := chars.takeWhile (· ≠ '\x27')
      let rest := chars.dropWhile (· ≠ '\x27')
      let marks := rest.takeWhile (· = '\x27')
      let after := rest.dropWhile (· = '\x27')
      '\x27' :: plain ++ '\x27'
        :: (if marks.isEmpty then [] else '"' :: marks ++ ['"'])
        ++ (if after.isEmpty then [] else go most after)
  String.ofList (go (text.length + 1) text.toList)

end Builtin
end Script
end CommandShell
