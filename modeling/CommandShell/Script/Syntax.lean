/-!
# The syntax of scripts

A script is made of commands, and commands of words and redirections. A word is a list of glyphs:
characters, which know whether they were quoted, and things that are put in when the word is used,
such as parameters. What stands inside the braces of a parameter, and scripts inside words, are
kept as they were written and read when they are needed.
-/

namespace CommandShell
namespace Script

/-! ## Words -/

/-- What is cut away from the value of a parameter: the shortest or longest part, at the start or
at the end, that fits a pattern. -/
structure Trim where
  atEnd : Bool
  longest : Bool
  pattern : List Char
deriving DecidableEq

/-- What a word beside a parameter is for. -/
inductive Form where
  /-- It is used where there is no value. -/
  | default
  /-- It becomes the value where there is none. -/
  | assign
  /-- It says what is wrong where there is no value. -/
  | complain
  /-- It is used where there is a value. -/
  | alternative
deriving DecidableEq

/-- What is put in for a parameter. -/
inductive Use where
  | value
  | length
  | choose (form : Form) (emptyIsNone : Bool) (word : List Char)
  | trimmed (t : Trim)
  /-- Nothing that could be understood. -/
  | bad
deriving DecidableEq

/-- An element of a word. -/
inductive Glyph where
  | char (c : Char) (quoted : Bool)
  | parameter (name : String) (use : Use) (quoted : Bool)
  /-- The output of a script, which a parenthesis may close. -/
  | output (line : Nat) (script : List Char) (closed : Bool) (quoted : Bool)
  /-- The value of an arithmetic expression. -/
  | arithmetic (expression : List Char) (quoted : Bool)
  /-- Quotes were opened here: the word counts even if it has no character. -/
  | quotes
deriving DecidableEq

/-- A word. -/
abbrev Word := List Glyph

namespace Word

/-- The characters of a word that has neither quotes nor anything to put in. -/
def plain? (word : Word) : Option String :=
  let chars := word.filterMap fun
    | .char c false => some c
    | _ => none
  if chars.length = word.length then some (String.ofList chars) else none

/-- The characters of a word as they are, without its quotes. -/
def text (word : Word) : String :=
  String.ofList <| word.filterMap fun
    | .char c _ => some c
    | _ => none

/-- Some part of the word was quoted. -/
def isQuoted (word : Word) : Bool :=
  word.any fun
    | .char _ quoted => quoted
    | .quotes => true
    | _ => false

/-- A character that may begin a name. -/
def beginsName (c : Char) : Bool := c.isAlpha || c == '_'

/-- A character that may stand in a name. -/
def isInName (c : Char) : Bool := c.isAlphanum || c == '_'

/-- A text that a variable may be called by. -/
def isName (text : String) : Bool :=
  match text.toList with
  | c :: rest => beginsName c && rest.all isInName
  | [] => false

/-- A word that gives a variable a value: a name, an equals sign and a word. -/
def assignment? (word : Word) : Option (String × Word) :=
  let isOther (g : Glyph) : Bool := g != .char '=' false
  match plain? (word.takeWhile isOther), word.dropWhile isOther with
  | some name, _ :: value => if isName name then some (name, value) else none
  | _, _ => none

end Word

/-! ## Commands -/

/-- What a redirection does with a stream. -/
inductive Direction where
  | read
  | write
  /-- Writes to a file even if that is protected against it. -/
  | overwrite
  | append
  | readWrite
  | duplicate
  /-- Reads from a text in the script itself. The text may still have things to be put in. -/
  | document (text : List Char) (expands : Bool)
deriving DecidableEq

/-- A redirection of a stream to the file or the stream that a word names. -/
structure Redirection where
  stream : Nat
  direction : Direction
  target : Word
deriving DecidableEq

/-- A command of a script. -/
inductive Command where
  | nothing
  | simple (line : Nat) (words : List Word) (redirections : List Redirection)
  | inOrder (first next : Command)
  | ifSucceeds (first next : Command)
  | ifFails (first next : Command)
  | negated (body : Command)
  /-- The output of the first command is the input of the next, which may be piped again. -/
  | piped (first next : Command)
  | background (body : Command)
  | subshell (line : Nat) (body : Command) (redirections : List Redirection)
  | redirected (line : Nat) (body : Command) (redirections : List Redirection)
  | branch (condition first otherwise : Command)
  /-- Repeats the body while the condition succeeds, or as long as it does not. -/
  | loop (whileSucceeding : Bool) (condition body : Command)
  | forEach (line : Nat) (name : String) (words : List Word) (body : Command)
  /-- Looks for the first clause with a pattern that the word fits. -/
  | select (line : Nat) (word : Word) (clauses : Command)
  | clause (patterns : List Word) (body next : Command)
  | define (name : String) (body : Command)
deriving DecidableEq

end Script
end CommandShell
