import CommandShell.Script.Token

/-!
# The grammar of scripts

The reader goes down through the forms of a command; a number that is larger than the number of
tokens bounds its depth. A script is read line by line: what a line says is done before the next
one is read, so a mistake further down does not keep a script from beginning.
-/

namespace CommandShell
namespace Script

/-- What is wrong with a script, and at which line. -/
structure Mistake where
  line : Nat
  text : String

namespace Grammar

/-- Reads something from the start of tokens; the answer is that and the tokens after it. -/
abbrev Reader (α : Type) := List Token → Except Mistake (α × List Token)

/-! ## Tokens -/

/-- The words that are no plain words where a command can begin. -/
def keywords : List String :=
  ["!", "case", "do", "done", "elif", "else", "esac", "fi", "for", "if", "in", "then", "until",
    "while", "\x7b", "\x7d"]

/-- The commands that no function can replace. -/
def specialCommands : List String :=
  [".", ":", "break", "continue", "eval", "exec", "exit", "export", "local", "readonly", "return",
    "set", "shift", "times", "trap", "unset"]

/-- The kind of the next token. -/
def next (tokens : List Token) : Token.Kind := (tokens.head?.map Token.kind).getD .scriptEnd

/-- The line of the next token. -/
def lineOf (tokens : List Token) : Nat := (tokens.head?.map Token.line).getD 1

/-- The keyword that the next token is. -/
def keyword? (tokens : List Token) : Option String :=
  match next tokens with
  | .word glyphs => (Word.plain? glyphs).filter keywords.contains
  | _ => none

/-- The next token is this keyword. -/
def isKeyword (text : String) (tokens : List Token) : Bool := keyword? tokens == some text

/-- How the next token is named in a complaint. -/
def describe (mayBeKeyword : Bool) (tokens : List Token) : String :=
  match next tokens with
  | .scriptEnd | .broken _ => "end of file"
  | .lineEnd => "newline"
  | .redirection _ _ => "redirection"
  | .operator text => "\"" ++ text ++ "\""
  | .word _ =>
    match mayBeKeyword, keyword? tokens with
    | true, some text => "\"" ++ text ++ "\""
    | _, _ => "word"

/-- The mistake that the next token is, for a reason. A token that is broken is a mistake of its
own. -/
def mistake {α : Type} (reason : String) (tokens : List Token) : Except Mistake α :=
  match next tokens with
  | .broken complaint => .error ⟨lineOf tokens, complaint⟩
  | _ => .error ⟨lineOf tokens, reason⟩

/-- The next token does not belong where it stands. -/
def unexpected {α : Type} (mayBeKeyword : Bool) (tokens : List Token) : Except Mistake α :=
  mistake (describe mayBeKeyword tokens ++ " unexpected") tokens

/-- The next token stands where another one has to be. -/
def expecting {α : Type} (mayBeKeyword : Bool) (text : String) (tokens : List Token) :
    Except Mistake α :=
  mistake (describe mayBeKeyword tokens ++ " unexpected (expecting " ++ text ++ ")") tokens

/-- Goes over a keyword. -/
def takeKeyword (text : String) (tokens : List Token) : Except Mistake (List Token) :=
  if isKeyword text tokens then .ok (tokens.drop 1)
  else expecting true ("\"" ++ text ++ "\"") tokens

/-- Goes over an operator. -/
def takeOperator (mayBeKeyword : Bool) (text : String) (tokens : List Token) :
    Except Mistake (List Token) :=
  if next tokens = .operator text then .ok (tokens.drop 1)
  else expecting mayBeKeyword ("\"" ++ text ++ "\"") tokens

/-- The tokens after line ends. -/
def skipLineEnds (tokens : List Token) : List Token := tokens.dropWhile fun t => t.kind = .lineEnd

/-- A list of commands that has begun ends before these tokens. -/
def isEnd (tokens : List Token) : Bool :=
  match next tokens with
  | .scriptEnd | .operator ")" | .operator ";;" => true
  | _ =>
    match keyword? tokens with
    | some text =>
      ["do", "done", "elif", "else", "esac", "fi", "then", "\x7d"].contains text
    | none => false

/-! ## Simple commands -/

/-- Takes words, if they are allowed, and redirections; both are kept in reverse. -/
def takeParts (withWords : Bool) (words : List Word) (redirections : List Redirection) :
    List Token → Except Mistake (List Word × List Redirection × List Token)
  | ⟨line, .word glyphs⟩ :: rest =>
    if withWords then takeParts withWords (glyphs :: words) redirections rest
    else .ok (words.reverse, redirections.reverse, ⟨line, .word glyphs⟩ :: rest)
  | ⟨_, .redirection stream direction⟩ :: ⟨_, .word target⟩ :: rest =>
    takeParts withWords words (⟨stream, direction, target⟩ :: redirections) rest
  | ⟨_, .redirection _ _⟩ :: rest => unexpected false rest
  | rest => .ok (words.reverse, redirections.reverse, rest)

/-- Reads a function, after its name and an opening parenthesis. -/
def readFunction (readCommand : Reader Command) (name : Word) : Reader Command := fun tokens => do
  let rest ← takeOperator false ")" tokens
  match (Word.plain? name).filter fun n => Word.isName n && !specialCommands.contains n with
  | none => mistake "Bad function name" tokens
  | some name =>
    let (body, rest) ← readCommand (skipLineEnds rest)
    return (.define name body, rest)

/-- Reads a simple command or a function. -/
def readSimple (readCommand : Reader Command) : Reader Command := fun tokens => do
  let (words, redirections, rest) ← takeParts true [] [] tokens
  match words, redirections, next rest with
  | [name], [], .operator "(" =>
    if (Word.assignment? name).isSome then return (.simple (lineOf tokens) words [], rest)
    else readFunction readCommand name (rest.drop 1)
  | _, _, _ => return (.simple (lineOf tokens) words redirections, rest)

/-! ## Compound commands -/

/-- The words that a loop takes when it names none: all arguments. -/
def allArguments : List Word := [[.quotes, .parameter "@" .value true]]

/-- The word that a token is. -/
def word? (t : Token) : Option Word :=
  match t.kind with
  | .word glyphs => some glyphs
  | _ => none

/-- Reads the words of a loop and the end of their line. -/
def readWords : Reader (List Word) := fun tokens =>
  let words := (tokens.takeWhile fun t => (word? t).isSome).filterMap word?
  let rest := tokens.drop words.length
  match next rest with
  | .operator ";" | .lineEnd => .ok (words, rest.drop 1)
  | _ => unexpected false rest

/-- Reads a list of commands between two keywords. -/
def readBetween (readList : Reader Command) (first last : String) : Reader Command :=
  fun tokens => do
    let (body, rest) ← readList (← takeKeyword first tokens)
    return (body, ← takeKeyword last rest)

/-- Reads a loop over words, after its keyword. -/
def readFor (readList : Reader Command) : Reader Command := fun tokens => do
  let line := lineOf tokens
  let name? := match next tokens with
    | .word glyphs => (Word.plain? glyphs).filter Word.isName
    | _ => none
  match name? with
  | none => mistake "Bad for loop variable" tokens
  | some name =>
    let rest := skipLineEnds (tokens.drop 1)
    let (words, rest) ←
      if isKeyword "in" rest then readWords (rest.drop 1)
      else if next rest = .operator ";" then pure (allArguments, rest.drop 1)
      else pure (allArguments, rest)
    let (body, rest) ← readBetween readList "do" "done" (skipLineEnds rest)
    return (.forEach line name words body, rest)

/-- Reads patterns between bars, up to a closing parenthesis. -/
def readPatterns : (most : Nat) → Reader (List Word)
  | 0, tokens => unexpected false tokens
  | most + 1, tokens => do
    let (pattern, rest) := match tokens with
      | ⟨_, .word glyphs⟩ :: rest => (glyphs, rest)
      | rest => ([], rest.drop 1)
    match next rest with
    | .operator "|" =>
      let (patterns, rest) ← readPatterns most (rest.drop 1)
      return (pattern :: patterns, rest)
    | _ => return ([pattern], ← takeOperator false ")" rest)

/-- Reads clauses, up to the keyword that ends them. -/
def readClauses (readBody : Reader Command) : (most : Nat) → Reader Command
  | 0, tokens => unexpected true tokens
  | most + 1, tokens => do
    let tokens := skipLineEnds tokens
    if isKeyword "esac" tokens then return (.nothing, tokens.drop 1)
    let tokens := if next tokens = .operator "(" then tokens.drop 1 else tokens
    let (patterns, rest) ← readPatterns tokens.length tokens
    let (body, rest) ← readBody rest
    let rest := skipLineEnds rest
    if isKeyword "esac" rest then return (.clause patterns body .nothing, rest.drop 1)
    let (more, rest) ← readClauses readBody most (← takeOperator true ";;" rest)
    return (.clause patterns body more, rest)

/-- Reads a choice between clauses, after its keyword. -/
def readCase (readBody : Reader Command) : Reader Command := fun tokens => do
  match tokens with
  | ⟨line, .word glyphs⟩ :: rest =>
    let rest ← takeKeyword "in" (skipLineEnds rest)
    let (clauses, rest) ← readClauses readBody rest.length rest
    return (.select line glyphs clauses, rest)
  | _ => expecting false "word" tokens

/-- Reads a conditional command, after its keyword. -/
def readIf (readList : Reader Command) : (most : Nat) → Reader Command
  | 0, tokens => unexpected true tokens
  | most + 1, tokens => do
    let (condition, rest) ← readList tokens
    let (first, rest) ← readList (← takeKeyword "then" rest)
    if isKeyword "elif" rest then
      let (otherwise, rest) ← readIf readList most (rest.drop 1)
      return (.branch condition first otherwise, rest)
    let (otherwise, rest) ←
      if isKeyword "else" rest then readList (rest.drop 1) else pure (.nothing, rest)
    return (.branch condition first otherwise, ← takeKeyword "fi" rest)

/-- Reads a loop with a condition, after its keyword. -/
def readWhile (readList : Reader Command) (whileSucceeding : Bool) : Reader Command :=
  fun tokens => do
    let (condition, rest) ← readList tokens
    let (body, rest) ← readBetween readList "do" "done" rest
    return (.loop whileSucceeding condition body, rest)

/-- Reads the redirections after a compound command. -/
def withRedirections (line : Nat) (c : Command) : Reader Command := fun tokens => do
  let (_, redirections, rest) ← takeParts false [] [] tokens
  match redirections, c with
  | [], c => return (c, rest)
  | redirections, .subshell line body _ => return (.subshell line body redirections, rest)
  | redirections, c => return (.redirected line c redirections, rest)

/-- Reads a command, given readers for commands and lists that are one level deeper. -/
def readOne (readCommand readList readBody : Reader Command) : Reader Command :=
  fun tokens => do
    let line := lineOf tokens
    let inner := tokens.drop 1
    let compound (reader : Reader Command) : Except Mistake (Command × List Token) := do
      let (c, rest) ← reader inner
      withRedirections line c rest
    match next tokens, keyword? tokens with
    | .operator "(", _ => compound fun tokens => do
      let (body, rest) ← readList tokens
      return (.subshell line body [], ← takeOperator true ")" rest)
    | _, some "\x7b" => compound fun tokens => do
      let (body, rest) ← readList tokens
      return (body, ← takeKeyword "\x7d" rest)
    | _, some "if" => compound (readIf readList inner.length)
    | _, some "while" => compound (readWhile readList true)
    | _, some "until" => compound (readWhile readList false)
    | _, some "for" => compound (readFor readList)
    | _, some "case" => compound (readCase readBody)
    | _, some _ => unexpected true tokens
    | .word _, none | .redirection _ _, none => readSimple readCommand tokens
    | _, none => unexpected true tokens

/-! ## Lists of commands -/

/-- Reads commands joined by bars. -/
def readPipe (readCommand : Reader Command) : (most : Nat) → Reader Command
  | 0, tokens => unexpected true tokens
  | most + 1, tokens => do
    let (first, rest) ← readCommand tokens
    if next rest = .operator "|" then
      let (next, rest) ← readPipe readCommand most (skipLineEnds (rest.drop 1))
      return (.piped first next, rest)
    return (first, rest)

/-- Reads commands joined by bars, whose success may be negated. -/
def readPipeline (readCommand : Reader Command) : Reader Command := fun tokens => do
  if isKeyword "!" tokens then
    let (body, rest) ← readPipe readCommand tokens.length (tokens.drop 1)
    return (.negated body, rest)
  readPipe readCommand tokens.length tokens

/-- Reads on after a pipeline that may be followed by `&&` or `||`. -/
def readChain (readPipeline : Reader Command) : (most : Nat) → Command → Reader Command
  | 0, _, tokens => unexpected true tokens
  | most + 1, first, tokens => do
    match next tokens with
    | .operator "&&" =>
      let (next, rest) ← readPipeline (skipLineEnds (tokens.drop 1))
      readChain readPipeline most (.ifSucceeds first next) rest
    | .operator "||" =>
      let (next, rest) ← readPipeline (skipLineEnds (tokens.drop 1))
      readChain readPipeline most (.ifFails first next) rest
    | _ => return (first, tokens)

/-- Reads pipelines joined by `&&` and `||`. -/
def readAndOr (readCommand : Reader Command) : Reader Command := fun tokens => do
  let (first, rest) ← readPipeline readCommand tokens
  readChain (readPipeline readCommand) tokens.length first rest

/-- Puts two commands one after the other. -/
def join (first : Command) : Command → Command
  | .nothing => first
  | next => .inOrder first next

/-- Reads a list of commands that was begun if `begun` says so, up to what ends it. -/
def readRest (readCommand : Reader Command) : (most : Nat) → (begun : Bool) → Reader Command
  | 0, _, tokens => unexpected true tokens
  | most + 1, begun, tokens => do
    let tokens := skipLineEnds tokens
    if (begun && isEnd tokens) || next tokens = .scriptEnd then return (.nothing, tokens)
    let (first, rest) ← readAndOr readCommand tokens
    match next rest with
    | .operator ";" | .lineEnd =>
      let (next, rest) ← readRest readCommand most true (rest.drop 1)
      return (join first next, rest)
    | .operator "&" =>
      let (next, rest) ← readRest readCommand most true (rest.drop 1)
      return (join (.background first) next, rest)
    | _ => return (first, rest)

/-- Reads a command that is at most so deep. -/
def readCommand : (depth : Nat) → Reader Command
  | 0, tokens => unexpected true tokens
  | depth + 1, tokens =>
    let readList (begun : Bool) : Reader Command := fun tokens =>
      readRest (readCommand depth) (tokens.length + 1) begun tokens
    readOne (readCommand depth) (readList false) (readList true) tokens

/-- Reads the commands of one line; what they contain may reach over more lines. -/
def readLine (readCommand : Reader Command) : (most : Nat) → Reader Command
  | 0, tokens => unexpected true tokens
  | most + 1, tokens => do
    match next tokens with
    | .lineEnd => return (.nothing, tokens.drop 1)
    | .scriptEnd => return (.nothing, tokens)
    | _ =>
      let (first, rest) ← readAndOr readCommand tokens
      match next rest with
      | .operator ";" =>
        let (next, rest) ← readLine readCommand most (rest.drop 1)
        return (join first next, rest)
      | .operator "&" =>
        let (next, rest) ← readLine readCommand most (rest.drop 1)
        return (join (.background first) next, rest)
      | .lineEnd => return (first, rest.drop 1)
      | .scriptEnd => return (first, rest)
      | _ => unexpected true rest

/-- Reads a whole script that stands in a word, up to its end or the parenthesis that closes it. -/
def inner (line : Nat) (text : List Char) (closed : Bool) : Except Mistake Command := do
  let tokens := Token.ofInner line text closed
  let most := tokens.length + 1
  let (command, rest) ← readRest (readCommand most) most closed tokens
  if next rest = (if closed then .operator ")" else .scriptEnd) then return command
  unexpected true rest

/-! ## Scripts in words -/

/-- All words of a command. -/
def wordsOf : Command → List Word
  | .nothing => []
  | .simple _ words redirections => words ++ redirections.map Redirection.target
  | .inOrder first next | .ifSucceeds first next | .ifFails first next | .piped first next
  | .loop _ first next => wordsOf first ++ wordsOf next
  | .negated body | .background body | .define _ body => wordsOf body
  | .subshell _ body redirections | .redirected _ body redirections =>
    wordsOf body ++ redirections.map Redirection.target
  | .branch condition first otherwise => wordsOf condition ++ wordsOf first ++ wordsOf otherwise
  | .forEach _ _ words body => words ++ wordsOf body
  | .select _ word clauses => word :: wordsOf clauses
  | .clause patterns body next => patterns ++ wordsOf body ++ wordsOf next

/-- Looks for mistakes in the scripts in the words of a command, which are in each other at most
so deep. -/
def check : (depth : Nat) → Command → Except Mistake Unit
  | 0, _ => .ok ()
  | depth + 1, command =>
    (wordsOf command).flatten.forM fun
      | .output line script closed _ => do check depth (← inner line script closed)
      | _ => .ok ()

/-- Scripts are in words of scripts at most so deep. -/
def deepest : Nat := 50

/-- Reads the first line of a script. -/
def firstLine : Reader Command := fun tokens => do
  let most := tokens.length + 1
  let (command, rest) ← readLine (readCommand most) most tokens
  check deepest command
  return (command, rest)

end Grammar
end Script
end CommandShell
