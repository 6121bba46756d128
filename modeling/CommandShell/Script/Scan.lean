/-!
# Nested texts

Where a word of a script has a substitution, the text of that goes to the parenthesis, brace or
quote that closes it. The scan for it keeps a stack of what was opened. A parenthesis does not
close a script where it belongs to a group or to a pattern in it, so for each script that is open
the scan also follows how its commands begin.
-/

namespace CommandShell
namespace Script
namespace Token

/-! ## Places in scripts -/

/-- How far a selection by patterns was read. -/
inductive Phase where
  /-- Up to the word that the patterns are for. -/
  | subject
  /-- Up to the word `in`. -/
  | announced
  | pattern
  | body
deriving DecidableEq

/-- What was opened in a script and has parentheses. -/
inductive Opened where
  | group
  | selection (phase : Phase)
deriving DecidableEq

/-- A place in a script: the word that was begun, whether a command may begin with it, and what is
open. -/
structure Place where
  /-- The characters of the word, in reverse. -/
  word : List Char := []
  begun : Bool := false
  /-- No part of the word was quoted or put in. -/
  isPlain : Bool := true
  mayBegin : Bool := true
  /-- The last character was a semicolon. -/
  semicolon : Bool := false
  opened : List Opened := []
deriving DecidableEq

namespace Place

/-- The words after which a command may begin. -/
def introductions : List String :=
  ["if", "then", "else", "elif", "while", "until", "do", "\x7b", "!"]

/-- Ends the word that was begun. -/
def endWord (p : Place) : Place :=
  let text := if p.isPlain then String.ofList p.word.reverse else ""
  let next : Place := { opened := p.opened, mayBegin := false }
  if !p.begun then { p with semicolon := false }
  else match p.opened with
    | .selection .subject :: rest => { next with opened := .selection .announced :: rest }
    | .selection .announced :: rest =>
      { next with opened := .selection .pattern :: rest, mayBegin := true }
    | opened =>
      if !p.mayBegin then next
      else match text, opened with
        | "esac", .selection _ :: rest => { next with opened := rest }
        | _, .selection .pattern :: _ => next
        | "case", _ => { next with opened := .selection .subject :: opened }
        | text, _ => { next with mayBegin := introductions.contains text }

/-- Ends a command. -/
def endCommand (p : Place) : Place := { p.endWord with mayBegin := true }

/-- Ends a command with a semicolon. Two of them end the body of a pattern. -/
def addSemicolon (p : Place) : Place :=
  match p.semicolon, p.opened with
  | true, .selection .body :: rest => { opened := .selection .pattern :: rest }
  | _, _ => { p.endCommand with semicolon := true }

/-- Opens a parenthesis, which may be a part of a pattern. -/
def openParenthesis (p : Place) : Place :=
  let p := p.endWord
  match p.opened with
  | .selection .pattern :: _ => p
  | opened => { p with opened := .group :: opened, mayBegin := true }

/-- Closes a parenthesis, if it does not close the script. -/
def closeParenthesis? (p : Place) : Option Place :=
  let p := p.endWord
  match p.opened with
  | .group :: rest => some { p with opened := rest, mayBegin := true }
  | .selection .pattern :: rest =>
    some { p with opened := .selection .body :: rest, mayBegin := true }
  | _ => none

/-- Adds a character to the word. -/
def add (isPlain : Bool) (c : Char) (p : Place) : Place :=
  { p with word := c :: p.word, begun := true, isPlain := p.isPlain && isPlain, semicolon := false }

end Place

/-! ## The scan -/

/-- What was opened and has to be closed. -/
inductive Nest where
  | script (place : Place)
  /-- An arithmetic expression, which two parentheses close. -/
  | expression
  /-- A parenthesis in an expression. -/
  | parenthesis
  /-- Braces of a parameter; in quoted ones an apostrophe is a character like any other. -/
  | brace (quoted : Bool)
  | single
  | double
  | back
  | comment
deriving DecidableEq

/-- The scan of a nested text: what is open, innermost first, and the text in reverse. -/
structure Scan where
  stack : List Nest
  chars : List Char := []
  escaped : Bool := false
  dollar : Bool := false
  /-- The last character opened a script, which is an expression if it goes on with another
  parenthesis. -/
  fresh : Bool := false
  /-- The last character was a parenthesis that closes an expression if another one follows. -/
  closing : Bool := false

namespace Scan

/-- A scan of a text that was just opened. -/
def ofNest (n : Nest) : Scan :=
  let fresh : Bool := match n with
    | .script _ => true
    | _ => false
  { stack := [n], fresh }

/-- Goes over one character. The one that closes the outermost opening is no part of the text. -/
def step (s : Scan) (c : Char) : Scan :=
  let kept (stack : List Nest) : Scan := { stack, chars := c :: s.chars }
  let below := s.stack.drop 1
  let pop : Scan := if below.isEmpty then { stack := [], chars := s.chars } else kept below
  let same := kept s.stack
  if s.escaped then same
  else match s.stack with
    | [] => s
    | .single :: _ => if c = '\x27' then pop else same
    | .back :: _ =>
      if c = '\\' then { same with escaped := true } else if c = '\x60' then pop else same
    | .comment :: _ =>
      if c ≠ '\n' then same
      else kept (match below with
        | .script p :: rest => .script p.endCommand :: rest
        | stack => stack)
    | top :: _ =>
      let isQuoting : Bool := match top with
        | .double | .brace true | .expression | .parenthesis => true
        | _ => false
      -- What is opened or quoted is a part of the word of a script.
      let touched : List Nest := match top with
        | .script p => .script (p.add false c) :: below
        | _ => s.stack
      if s.fresh && c = '(' then kept (.expression :: below)
      else if s.dollar && c = '\x7b' then kept (.brace isQuoting :: touched)
      else if s.dollar && c = '(' then { kept (.script {} :: touched) with fresh := true }
      else if c = '\\' then { kept touched with escaped := true }
      else if c = '$' then { kept touched with dollar := true }
      else if c = '\x60' then kept (.back :: touched)
      else match top, c with
        | .double, '"' => pop
        | .brace _, '\x7d' => pop
        | .brace _, '"' => kept (.double :: touched)
        | .brace false, '\x27' => kept (.single :: touched)
        | .expression, '(' => kept (.parenthesis :: touched)
        | .expression, ')' => if s.closing then pop else { same with closing := true }
        | .parenthesis, '(' => kept (.parenthesis :: touched)
        | .parenthesis, ')' => pop
        | .script _, '"' => kept (.double :: touched)
        | .script _, '\x27' => kept (.single :: touched)
        | .script p, '#' => if p.begun then kept touched else kept (.comment :: s.stack)
        | .script p, ')' =>
          match p.closeParenthesis? with
          | some p => kept (.script p :: below)
          | none => pop
        | .script p, c =>
          let p := match c with
            | ' ' | '\t' => p.endWord
            | '\n' | '&' | '|' => p.endCommand
            | ';' => p.addSemicolon
            | '<' | '>' => { p.endWord with mayBegin := false }
            | '(' => p.openParenthesis
            | c => p.add true c
          kept (.script p :: below)
        | _, _ => same

/-- The text that was gone over. -/
def text (s : Scan) : List Char := s.chars.reverse

/-- What is missing where the text ends too early. -/
def complaint (s : Scan) : String :=
  match s.stack.filter (· ≠ .comment) with
  | .brace false :: _ => "Missing '\x7d'"
  | .expression :: _ | .parenthesis :: _ => "Missing '))'"
  | .back :: _ => "EOF in backquote substitution"
  | .script _ :: _ => "end of file unexpected (expecting \")\")"
  | _ => "Unterminated quoted string"

end Scan
end Token
end Script
end CommandShell
