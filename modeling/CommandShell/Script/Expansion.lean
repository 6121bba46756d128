import CommandShell.Script.Arithmetic
import CommandShell.Script.Environment
import CommandShell.Script.Names
import CommandShell.Script.Token

/-!
# Expansion of words

A word of a script stands for any number of texts. First everything is put in that it names: the
values of parameters, the outputs of scripts and the values of expressions. This gives a row of
pieces. Then separators in what was put in outside of quotes divide it into texts, and those that
are patterns are replaced by the paths that fit them.
-/

namespace CommandShell
namespace Script

/-- A piece of a word in which everything was put in. -/
inductive Piece where
  /-- A character; if it divides and is a separator, a text may end with it. -/
  | char (c : Char) (quoted : Bool) (divides : Bool)
  /-- A text ends here. -/
  | cut
  /-- There is a text here, even if it has no character. -/
  | present

namespace Expansion

/-- Runs a script that stands at a line, for its output. -/
abbrev Substitution := (line : Nat) → (script : List Char) → (closed : Bool) → Act (List Char)

/-! ## Parameters -/

/-- The letters of the options in the order in which they are listed. -/
def optionOrder : List Char :=
  ['p', 'u', 'b', 'a', 'C', 'E', 'V', 'v', 'x', 's', 'n', 'm', 'i', 'I', 'f', 'e']

/-- The text between the positional parameters where they are joined. -/
def joint (env : Env) : List Char :=
  match env.value? "IFS" with
  | none => [' ']
  | some separators => separators.toList.take 1

/-- The positional parameters in one text. -/
def joined (env : Env) : List Char :=
  List.intercalate (joint env) (env.positional.map String.toList)

/-- The value of a parameter. -/
def valueOf (env : Env) (name : String) : Option (List Char) :=
  match name with
  | "0" => some env.zero.toList
  | "#" => some (Nat.toDigits 10 env.positional.length)
  | "?" => some (Nat.toDigits 10 env.status)
  | "$" => some (Nat.toDigits 10 env.script)
  | "!" => env.background?.map fun process => Nat.toDigits 10 process
  | "-" => some (optionOrder.filter env.options.contains)
  | "@" | "*" => some (joined env)
  | name =>
    if Signal.isNumber name then (env.positional[Signal.numberOf name - 1]?).map String.toList
    else (env.value? name).map String.toList

/-- The value of a parameter that has to have one if the options say so. -/
def requireValue (name : String) : Act (List Char) := do
  let env ← get
  match valueOf env name with
  | some value => return value
  | none =>
    if env.has 'u' then fail (name ++ ": parameter not set")
    return []

/-! ## Pieces -/

/-- The pieces of a text that is put in. -/
def ofText (quoted : Bool) (text : List Char) : List Piece :=
  text.map fun c => .char c quoted (!quoted)

/-- The pieces of all positional parameters, each a text of its own. -/
def ofAll (quoted : Bool) : List String → List Piece
  | [] => []
  | [text] => one text
  | text :: rest => one text ++ .cut :: ofAll quoted rest
where
  /-- The pieces of one parameter. -/
  one (text : String) : List Piece :=
    (if quoted then [.present] else []) ++ ofText quoted text.toList

/-- The pieces of all positional parameters, from which together a part is cut off. -/
def trimAll (quoted atEnd longest : Bool) (pattern : List Pattern.Element)
    (texts : List String) : List Piece :=
  let row := List.intercalate [Pattern.separator] (texts.map String.toList)
  let kept := partsOf Pattern.separator (String.ofList (Pattern.trim atEnd longest pattern row))
  ofAll quoted (if texts.isEmpty then [] else kept)

/-- The characters of pieces, where texts are not divided. -/
def toMarks (env : Env) (pieces : List Piece) : List Mark :=
  pieces.flatMap fun
    | .char c quoted _ => [⟨c, quoted⟩]
    | .cut => (joint env).map fun c => ⟨c, true⟩
    | .present => []

/-- The text of characters. -/
def toText (marks : List Mark) : String := String.ofList (marks.map Mark.char)

/-! ## Homes -/

/-- The home directory of a user, if there is one. The user without a name is the one who runs the
script. -/
def home? (env : Env) (user : List Char) : Option (List Char) :=
  if user.isEmpty then (env.value? "HOME").map String.toList
  else if user = "root".toList then some "/root".toList
  else none

/-- Puts in a home directory for a tilde at the start of a word, after which a user may be named
up to a slash. -/
def putHome (env : Env) : Word → Word
  | .char '~' false :: rest =>
    let isInName : Glyph → Bool
      | .char c false => c ≠ '/'
      | _ => false
    let after := rest.dropWhile isInName
    let ends : Bool := match after with
      | [] | .char _ false :: _ => true
      | _ => false
    match (home? env (Word.text (rest.takeWhile isInName)).toList).filter fun _ => ends with
    | some home => home.map (.char · true) ++ after
    | none => .char '~' false :: rest
  | word => word

/-- Cuts a word at its colons. -/
def cutAtColons : Word → List Word
  | [] => [[]]
  | g :: rest =>
    if g = .char ':' false then [] :: cutAtColons rest
    else match cutAtColons rest with
      | [] => [[g]]
      | part :: parts => (g :: part) :: parts

/-- Puts in home directories at the start of a value and after its colons. -/
def putHomes (env : Env) (word : Word) : Word :=
  List.intercalate [.char ':' false] ((cutAtColons word).map (putHome env))

/-! ## Putting things in -/

/-- The value of an arithmetic expression. -/
def calculate (expression : List Char) : Act (List Char) := do
  let env ← get
  match Arithmetic.run (fun name => (env.value? name).getD "") expression with
  | .ok r =>
    for (name, value) in r.assigned do
      assign name (toString value) false
    return (toString r.value).toList
  | .error (.expression reason) =>
    fail ("arithmetic expression: " ++ reason ++ ": \"" ++ String.ofList expression ++ "\"")
  | .error (.value text) => fail ("Illegal number: " ++ text)

/-- The pieces of a word. Words inside of it are at most `depth` deep. -/
def pieces (substitute : Substitution) :
    (depth : Nat) → (inBraces : Bool) → Word → Act (List Piece)
  | 0, _, _ => return []
  | depth + 1, inBraces, word => do
    let inner (ground : Token.Ground) (text : List Char) : Act (List Piece) := do
      let env ← get
      let glyphs := Token.glyphs ground text
      pieces substitute depth (ground = .braces)
        (if ground = .braces then putHome env glyphs else glyphs)
    let one (g : Glyph) : Act (List Piece) := do
      match g with
      | .char c quoted => return [.char c quoted (inBraces && !quoted)]
      | .quotes => return [.present]
      | .output line script closed quoted =>
        return ofText quoted (← substitute line script closed)
      | .arithmetic expression quoted =>
        let expanded ← inner .document expression
        return ofText quoted (← calculate ((toMarks (← get) expanded).map Mark.char))
      | .parameter name use quoted =>
        let ground : Token.Ground := if quoted then .quotedBraces else .braces
        let value : Act (List Piece) := do
          let text ← requireValue name
          let env ← get
          if name = "@" ∨ (name = "*" ∧ !quoted) then return ofAll quoted env.positional
          return ofText quoted text
        match use with
        | .bad => fail "Bad substitution"
        | .value => value
        | .length =>
          let text ← requireValue name
          return ofText quoted (Nat.toDigits 10 (Utf8.encodeChars text).length)
        | .trimmed t =>
          let text ← requireValue name
          let expanded ← inner .braces t.pattern
          let env ← get
          let pattern := Pattern.ofMarks (toMarks env expanded)
          if name = "@" ∨ (name = "*" ∧ !quoted) then
            return trimAll quoted t.atEnd t.longest pattern env.positional
          return ofText quoted (Pattern.trim t.atEnd t.longest pattern text)
        | .choose form emptyIsNone word =>
          let text? := (valueOf (← get) name).filter fun text => !(emptyIsNone && text.isEmpty)
          match form, text? with
          | .alternative, some _ => inner ground word
          | .alternative, none => return []
          | _, some _ => value
          | .default, none => inner ground word
          | .assign, none =>
            let marks ← inner ground word
            let text := (toMarks (← get) marks).map Mark.char
            if !Word.isName name then fail (name ++ ": bad variable name")
            assign name (String.ofList text) false
            return ofText quoted text
          | .complain, none =>
            let expanded ← inner ground word
            let text := toText (toMarks (← get) expanded)
            let reason :=
              if !word.isEmpty then text
              else "parameter not set" ++ if emptyIsNone then " or null" else ""
            fail (name ++ ": " ++ reason)
    let mut all : List (List Piece) := []
    for g in word do
      all := (← one g) :: all
    return all.reverse.flatten

/-- Words are in words at most so deep. -/
def deepest : Nat := 100

/-! ## Dividing -/

/-- Divides pieces into texts. The characters of the present text are kept in reverse; `soft`
says that the last text was ended by a blank, after which another separator may still belong to
the same end. -/
def divide (separators : List Char) (current : Option (List Mark)) (soft : Bool) :
    List Piece → List (List Mark)
  | [] => close current
  | .cut :: rest => close current ++ divide separators none true rest
  | .present :: rest => divide separators (some (current.getD [])) false rest
  | .char c quoted divides :: rest =>
    if divides && separators.contains c then
      let isBlank := c = ' ' ∨ c = '\t' ∨ c = '\n'
      match current with
      | some _ => close current ++ divide separators none isBlank rest
      | none =>
        if isBlank then divide separators none soft rest
        else if soft then divide separators none false rest
        else [] :: divide separators none false rest
    else divide separators (some (⟨c, quoted⟩ :: current.getD [])) false rest
where
  /-- The present text, if there is one. -/
  close : Option (List Mark) → List (List Mark)
    | none => []
    | some marks => [marks.reverse]

/-- The paths that a text stands for if it is a pattern, or the text itself. -/
def paths (env : Env) (marks : List Mark) : List String :=
  if !env.has 'f' && Pattern.isOpen (Pattern.ofMarks marks) then
    match Pattern.paths env.standing marks with
    | [] => [toText marks]
    | found => found
  else [toText marks]

/-- Quotes around no positional parameters stand for no text. -/
def withoutVainQuotes (env : Env) (word : Word) : Word :=
  let isAll : Glyph → Bool
    | .parameter "@" .value true => true
    | _ => false
  if env.positional.isEmpty && word.any isAll then
    match word with
    | .quotes :: rest => if rest.all fun g => isAll g then [] else word
    | word => word
  else word

end Expansion

/-! ## Words -/

open Expansion in
/-- The texts that a word stands for. -/
def expand (substitute : Substitution) (word : Word) : Act (List String) := do
  let env ← get
  let word := putHome env (withoutVainQuotes env word)
  let expanded ← pieces substitute deepest false word
  let env ← get
  return (divide env.separators none false expanded).flatMap (paths env)

open Expansion in
/-- The characters of the one text that a word stands for where texts are not divided. -/
def expandMarks (substitute : Substitution) (word : Word) : Act (List Mark) := do
  let expanded ← pieces substitute deepest false (putHome (← get) word)
  return toMarks (← get) expanded

open Expansion in
/-- The one text that a word stands for where texts are not divided. -/
def expandWhole (substitute : Substitution) (word : Word) : Act String := do
  return toText (← expandMarks substitute word)

open Expansion in
/-- The value that a word stands for in an assignment. -/
def expandValue (substitute : Substitution) (word : Word) : Act String := do
  let expanded ← pieces substitute deepest false (putHomes (← get) word)
  return toText (toMarks (← get) expanded)

open Expansion in
/-- The text in a script that a command reads, with everything put in. -/
def expandDocument (substitute : Substitution) (text : List Char) : Act String := do
  let expanded ← pieces substitute deepest false (Token.glyphs .document text)
  return toText (toMarks (← get) expanded)

end Script
end CommandShell
