import CommandShell.Script.Scan
import CommandShell.Script.Syntax

/-!
# Tokens of scripts

A script is cut into words, operators and line ends. The cut is a fold over the characters: a
state says what was seen so far and what the next character may still add to. The texts of nested
scripts and of parameters in braces are skipped by a scan of their own.
-/

namespace CommandShell
namespace Script

/-- The kinds of token. -/
inductive Token.Kind where
  | word (glyphs : Word)
  | operator (text : String)
  | redirection (stream : Nat) (direction : Direction)
  | lineEnd
  | scriptEnd
  /-- The script ends inside of something; the text says what is missing. -/
  | broken (complaint : String)
deriving DecidableEq

/-- A token, and the line at which it was read. -/
structure Token where
  line : Nat
  kind : Token.Kind
deriving DecidableEq

namespace Token

/-! ## Nested texts -/

/-- The text of a script between backquotes: a backslash there is for the characters that would
have a meaning. -/
def unescapeBack (quoted : Bool) : List Char → List Char
  | '\\' :: c :: rest =>
    if c = '$' ∨ c = '\\' ∨ c = '\x60' ∨ (quoted ∧ c = '"') then c :: unescapeBack quoted rest
    else if c = '\n' then unescapeBack quoted rest
    else '\\' :: c :: unescapeBack quoted rest
  | c :: rest => c :: unescapeBack quoted rest
  | [] => []

/-- Splits off the name of a parameter: a name, a number or one special character. -/
def takeParameter : List Char → List Char × List Char
  | [] => ([], [])
  | c :: rest =>
    if Word.beginsName c then
      ((c :: rest).takeWhile Word.isInName, (c :: rest).dropWhile Word.isInName)
    else if c.isDigit then
      ((c :: rest).takeWhile Char.isDigit, (c :: rest).dropWhile Char.isDigit)
    else if "@*#?$!-".toList.contains c then ([c], rest)
    else ([], c :: rest)

/-- What is done with a parameter, by the text after its name. -/
def readUse (rest : List Char) : Use :=
  let form? : Char → Option Form
    | '-' => some .default
    | '=' => some .assign
    | '?' => some .complain
    | '+' => some .alternative
    | _ => none
  match rest with
  | [] => .value
  | '#' :: '#' :: pattern => .trimmed ⟨false, true, pattern⟩
  | '#' :: pattern => .trimmed ⟨false, false, pattern⟩
  | '%' :: '%' :: pattern => .trimmed ⟨true, true, pattern⟩
  | '%' :: pattern => .trimmed ⟨true, false, pattern⟩
  | ':' :: c :: word =>
    match form? c with
    | some form => .choose form true word
    | none => .bad
  | c :: word =>
    match form? c with
    | some form => .choose form false word
    | none => .bad

/-- Reads a parameter written in braces. -/
def readBraces (quoted : Bool) (text : List Char) : Glyph :=
  let asLength : Option Glyph := match text with
    | '#' :: rest =>
      match takeParameter rest with
      | (c :: name, []) => some (.parameter (String.ofList (c :: name)) .length quoted)
      | _ => none
    | _ => none
  match asLength, takeParameter text with
  | some glyph, _ => glyph
  | none, ([], _) => .parameter "" .bad quoted
  | none, (name, rest) => .parameter (String.ofList name) (readUse rest) quoted

/-- The element of a word that a nested text stands for. -/
def readNested (outermost : Nest) (line : Nat) (quoted : Bool) (text : List Char) : Glyph :=
  match outermost with
  | .brace _ => readBraces quoted text
  | .back => .output 1 (unescapeBack quoted text) false quoted
  | _ =>
    if text.head? = some '(' then .arithmetic ((text.drop 1).dropLast) quoted
    else .output line text true quoted

/-! ## The state of the cut -/

/-- Where a text comes from that is cut. -/
inductive Ground where
  | script
  /-- A word in the braces of a parameter, where blanks and operators are plain. -/
  | braces
  /-- The same inside quotation marks. -/
  | quotedBraces
  /-- A text in the script that a command reads. -/
  | document
deriving DecidableEq

/-- Where a character is read: on which ground, and inside quotation marks or not. -/
structure Region where
  ground : Ground
  quotes : Bool := false
deriving DecidableEq

/-- Characters read here are quoted. -/
def Region.isQuoted (r : Region) : Bool :=
  r.quotes || r.ground == .quotedBraces || r.ground == .document

/-- What was begun and may go on with the next character. -/
inductive Mode where
  | ready (region : Region)
  | single (ground : Ground)
  | backslash (region : Region)
  | dollar (region : Region)
  /-- The name of a parameter, in reverse. -/
  | name (region : Region) (chars : List Char)
  | nested (region : Region) (outermost : Nest) (line : Nat) (scan : Scan)
  | comment
  | semicolon
  | ampersand
  | bar
  | less (stream : Nat)
  | twoLess (stream : Nat)
  | greater (stream : Nat)
  /-- A text for a command: its present line and all before, in reverse. -/
  | document (line text : List Char)

/-- A text for a command that is still to come: how it ends, whether things are put in, whether
tabulators before its lines are left out, and which token it belongs to. -/
structure Expected where
  mark : List Char
  expands : Bool
  strips : Bool
  token : Nat

/-- The state of the cut; tokens and glyphs are kept in reverse. -/
structure State where
  tokens : List Token := []
  glyphs : List Glyph := []
  mode : Mode
  line : Nat
  /-- The next word says how a text ends, whose tabulators may be left out. -/
  awaited : Option Bool := none
  documents : List Expected := []

namespace State

/-- Ends the word that was begun. -/
def endWord (s : State) : State :=
  if s.glyphs.isEmpty then s
  else
    let word := s.glyphs.reverse
    let documents := match s.awaited with
      | none => s.documents
      | some strips =>
        s.documents ++ [⟨(Word.text word).toList, !Word.isQuoted word, strips, s.tokens.length - 1⟩]
    { s with
      tokens := ⟨s.line, .word word⟩ :: s.tokens
      glyphs := []
      awaited := none
      documents }

/-- Adds a token, after the word that was begun. -/
def add (k : Kind) (s : State) : State :=
  let s := s.endWord
  { s with tokens := ⟨s.line, k⟩ :: s.tokens, mode := .ready ⟨.script, false⟩ }

/-- Adds an element to the word. -/
def glyph (g : Glyph) (s : State) : State := { s with glyphs := g :: s.glyphs }

/-- Counts the line that a character ends. -/
def count (c : Char) (s : State) : State :=
  if c = '\n' then { s with line := s.line + 1 } else s

/-- The digit before a redirection names a stream. -/
def streamNumber (s : State) (standard : Nat) : Nat × State :=
  match s.glyphs with
  | [.char d false] =>
    if d.isDigit then (d.toNat - '0'.toNat, { s with glyphs := [] }) else (standard, s)
  | _ => (standard, s)

/-- Ends a line. The texts that commands on it read come next. -/
def endLine (s : State) : State :=
  let s := { s.endWord with line := s.line + 1 }
  let s := s.add .lineEnd
  if s.documents.isEmpty then s else { s with mode := .document [] [] }

/-- Reads a character of the script itself, outside of quotes. -/
def readBare (s : State) (c : Char) : State :=
  match c with
  | '\n' => s.endLine
  | ' ' | '\t' => s.endWord
  | ';' => { s.endWord with mode := .semicolon }
  | '(' => s.add (.operator "(")
  | ')' => s.add (.operator ")")
  | '&' => { s.endWord with mode := .ampersand }
  | '|' => { s.endWord with mode := .bar }
  | '<' =>
    let (stream, s) := s.streamNumber 0
    { s.endWord with mode := .less stream }
  | '>' =>
    let (stream, s) := s.streamNumber 1
    { s.endWord with mode := .greater stream }
  | '#' => if s.glyphs.isEmpty then { s with mode := .comment } else s.glyph (.char c false)
  | c => s.glyph (.char c false)

/-- Reads a character where nothing else was begun. Nothing is put into the word that says how a
text ends. -/
def ready (region : Region) (s : State) (c : Char) : State :=
  let s := { s with mode := .ready region }
  if s.awaited.isSome ∧ (c = '$' ∨ c = '\x60') then s.glyph (.char c region.isQuoted)
  else if c = '$' then { s with mode := .dollar region }
  else if c = '\\' then { s with mode := .backslash region }
  else if c = '\x60' then { s with mode := .nested region .back s.line (.ofNest .back) }
  else if c = '"' ∧ region.ground ≠ .document then
    if region.ground = .quotedBraces then s
    else if region.quotes then { s with mode := .ready ⟨region.ground, false⟩ }
    else { s.glyph .quotes with mode := .ready ⟨region.ground, true⟩ }
  else if region.isQuoted then (s.glyph (.char c true)).count c
  else if c = '\x27' then { s.glyph .quotes with mode := .single region.ground }
  else if region.ground ≠ .script then (s.glyph (.char c false)).count c
  else s.readBare c

/-- Ends whatever was begun, when the next character does not belong to it. -/
def settle (s : State) : State :=
  match s.mode with
  | .dollar region => { s.glyph (.char '$' region.isQuoted) with mode := .ready region }
  | .name region chars =>
    { s.glyph (.parameter (String.ofList chars.reverse) .value region.isQuoted) with
      mode := .ready region }
  | .backslash region => { s.glyph (.char '\\' true) with mode := .ready region }
  | .semicolon => s.add (.operator ";")
  | .ampersand => s.add (.operator "&")
  | .bar => s.add (.operator "|")
  | .less stream => s.add (.redirection stream .read)
  | .twoLess stream =>
    { s.add (.redirection stream (.document [] true)) with awaited := some false }
  | .greater stream => s.add (.redirection stream .write)
  | _ => s

/-- Reads the character after a dollar sign. -/
def afterDollar (region : Region) (s : State) (c : Char) : State :=
  let nested (n : Nest) : State :=
    { s with mode := .nested region n s.line (.ofNest n) }
  if c = '\x7b' then nested (.brace region.isQuoted)
  else if c = '(' then nested (.script {})
  else if Word.beginsName c then { s with mode := .name region [c] }
  else if c.isDigit || "@*#?$!-".toList.contains c then
    { s.glyph (.parameter (String.singleton c) .value region.isQuoted) with mode := .ready region }
  else s.settle.ready region c

/-- Reads the character after a backslash. Where characters are quoted, it quotes only what would
have a meaning there. -/
def afterBackslash (region : Region) (s : State) (c : Char) : State :=
  let s := ({ s with mode := .ready region }).count c
  let hasMeaning := c = '$' ∨ c = '\\' ∨ c = '\x60' ∨ (c = '"' ∧ region.ground ≠ .document)
    ∨ (c = '\x7d' ∧ region.ground = .quotedBraces)
  if c = '\n' then s
  else if !region.isQuoted || hasMeaning then s.glyph (.char c true)
  else (s.glyph (.char '\\' true)).glyph (.char c true)

/-- Puts a text where it belongs, and goes on with the next one or with the script. -/
def endDocument (s : State) (text : List Char) : State :=
  match s.documents with
  | [] => { s with mode := .ready ⟨.script, false⟩ }
  | e :: rest =>
    let place := s.tokens.length - 1 - e.token
    let tokens := match s.tokens[place]? with
      | some ⟨line, .redirection stream _⟩ =>
        s.tokens.set place ⟨line, .redirection stream (.document text.reverse e.expands)⟩
      | _ => s.tokens
    { s with
      tokens
      documents := rest
      mode := if rest.isEmpty then .ready ⟨.script, false⟩ else .document [] [] }

/-- Reads a character of a text for a command. -/
def inDocument (s : State) (line text : List Char) (c : Char) : State :=
  let s := s.count c
  let strips := (s.documents.head?.map Expected.strips).getD false
  if c = '\n' then
    if s.documents.head?.map Expected.mark = some line.reverse then s.endDocument text
    else { s with mode := .document [] ('\n' :: line ++ text) }
  else if strips ∧ c = '\t' ∧ line = [] then s
  else { s with mode := .document (c :: line) text }

/-- Reads one character. -/
def step (s : State) (c : Char) : State :=
  match s.mode with
  | .ready region => s.ready region c
  | .single ground =>
    if c = '\x27' then { s with mode := .ready ⟨ground, false⟩ }
    else (s.glyph (.char c true)).count c
  | .backslash region => s.afterBackslash region c
  | .dollar region => s.afterDollar region c
  | .name region chars =>
    if Word.isInName c then { s with mode := .name region (c :: chars) }
    else s.settle.ready region c
  | .nested region outermost line scan =>
    let scan := scan.step c
    let s := s.count c
    if scan.stack.isEmpty then
      { s.glyph (readNested outermost line region.isQuoted scan.text) with mode := .ready region }
    else { s with mode := .nested region outermost line scan }
  | .comment => if c = '\n' then s.ready ⟨.script, false⟩ c else s
  | .semicolon => if c = ';' then s.add (.operator ";;") else s.settle.ready ⟨.script, false⟩ c
  | .ampersand => if c = '&' then s.add (.operator "&&") else s.settle.ready ⟨.script, false⟩ c
  | .bar => if c = '|' then s.add (.operator "||") else s.settle.ready ⟨.script, false⟩ c
  | .less stream =>
    if c = '&' then s.add (.redirection stream .duplicate)
    else if c = '>' then s.add (.redirection stream .readWrite)
    else if c = '<' then { s with mode := .twoLess stream }
    else s.settle.ready ⟨.script, false⟩ c
  | .twoLess stream =>
    if c = '-' then
      { s.add (.redirection stream (.document [] true)) with awaited := some true }
    else s.settle.ready ⟨.script, false⟩ c
  | .greater stream =>
    if c = '>' then s.add (.redirection stream .append)
    else if c = '&' then s.add (.redirection stream .duplicate)
    else if c = '|' then s.add (.redirection stream .overwrite)
    else s.settle.ready ⟨.script, false⟩ c
  | .document line text => s.inDocument line text c

/-- Ends the script. A text for a command that is not ended goes to the end of the script. -/
def finish (s : State) : State :=
  let s := s.settle
  let last (s : State) (k : Kind) : State := { s with tokens := ⟨s.line, k⟩ :: s.tokens }
  let broken (complaint : String) : State := last s (.broken complaint)
  match s.mode with
  | .single _ => broken "Unterminated quoted string"
  | .nested _ _ _ scan => broken scan.complaint
  | .document line text =>
    let isMark := s.documents.head?.map Expected.mark = some line.reverse
    last (s.endDocument (if isMark then text else line ++ text)) .scriptEnd
  | .ready ⟨_, true⟩ => broken "Unterminated quoted string"
  | _ => last s.endWord .scriptEnd

end State

/-- The tokens of a script. -/
def ofScript (line : Nat) (text : List Char) : List Token :=
  let start : State := { mode := .ready ⟨.script, false⟩, line }
  (text.foldl State.step start).finish.tokens.reverse

/-- The tokens of a script that stands in a word. A parenthesis may close it. -/
def ofInner (line : Nat) (text : List Char) (closed : Bool) : List Token :=
  (ofScript line text).map fun t =>
    if closed ∧ t.kind = .scriptEnd then { t with kind := .operator ")" } else t

/-- The glyphs of a text that is one word, cut on some ground. -/
def glyphs (ground : Ground) (text : List Char) : Word :=
  let start : State := { mode := .ready ⟨ground, false⟩, line := 1 }
  (text.foldl State.step start).settle.glyphs.reverse

end Token
end Script
end CommandShell
