/-!
# Words of a line

A line is cut at five delimiters into words, the maximal stretches without a delimiter. Nothing
is quoted and nothing is expanded: every other character, whatever it is, belongs to a word. The
cut is a single scan that carries the byte offset of each character, so that a word knows its
place in the line. A word need not be copied out of the line: `Word.views?` takes the words as views
of it, by a scan that carries only the offset at which the last word began.

A line may have any number of words: running out of memory for the list of them is left out.
-/

namespace CommandShell

/-- Space, tab, newline, carriage return and bell separate words. -/
def isDelimiter (c : Char) : Bool :=
  c == ' ' || c == '\t' || c == '\n' || c == '\r' || c == '\x07'

/-- A word and the byte offset in its line at which it starts. -/
structure Word where
  start : Nat
  chars : List Char
deriving DecidableEq

namespace Word

/-- The length of some characters in bytes. -/
def byteLength : List Char → Nat
  | [] => 0
  | c :: rest => c.utf8Size + byteLength rest

/-- The byte offset just after a word. -/
def stop (w : Word) : Nat := w.start + byteLength w.chars

/-- The word on its own. -/
def text (w : Word) : String := String.ofList w.chars

/-- Where a scan stands: between words, or inside the word that started at an offset. The
characters of an open word are kept in reverse. -/
inductive Place where
  | between
  | inside (start : Nat) (taken : List Char)

/-- Scans the characters that begin at the byte offset `offset`. A word ends at a delimiter or at
the end of the line. -/
def scan (offset : Nat) : Place → List Char → List Word
  | .between, [] => []
  | .inside start taken, [] => [⟨start, taken.reverse⟩]
  | .between, c :: rest =>
    if isDelimiter c then scan (offset + c.utf8Size) .between rest
    else scan (offset + c.utf8Size) (.inside offset [c]) rest
  | .inside start taken, c :: rest =>
    if isDelimiter c then ⟨start, taken.reverse⟩ :: scan (offset + c.utf8Size) .between rest
    else scan (offset + c.utf8Size) (.inside start (c :: taken)) rest

/-- The words of a line with their places. -/
def ofLine (line : String) : List Word := scan 0 .between line.toList

/-! ## Words as views -/

/-- The view of a line between two byte offsets. There is none unless both are positions of the
line, and the first is not after the second. -/
def view? (line : String) (start stop : Nat) : Option String.Slice := do
  let first ← line.pos? ⟨start⟩
  let past ← line.pos? ⟨stop⟩
  line.slice? first past

/-- What a scan for views tells apart. -/
inductive Kind where
  | delimiter
  | other

/-- The kind of a character. -/
def Kind.of (c : Char) : Kind := if isDelimiter c then .delimiter else .other

/-- Scans the characters of a line that begin at the byte offset `offset`. The one before them is
of the kind `before`, and `last` is the offset at which the last word began, if there was one. -/
def viewsFrom? (line : String) (before : Kind) (last offset : Nat) :
    List Char → Option (List String.Slice)
  | [] =>
    match before with
    | .delimiter => some []
    | .other => do
      let view ← view? line last line.utf8ByteSize
      return [view]
  | c :: rest =>
    match before, Kind.of c with
    | .delimiter, .other => viewsFrom? line .other offset (offset + c.utf8Size) rest
    | .other, .delimiter => do
      let view ← view? line last offset
      let later ← viewsFrom? line .delimiter last (offset + c.utf8Size) rest
      return view :: later
    | .delimiter, .delimiter => viewsFrom? line .delimiter last (offset + c.utf8Size) rest
    | .other, .other => viewsFrom? line .other last (offset + c.utf8Size) rest

/-- The views of the words of a line. A line begins as if after a delimiter. -/
def views? (line : String) : Option (List String.Slice) :=
  viewsFrom? line .delimiter 0 0 line.toList

end Word

/-- The words of a line, in order. -/
def words (line : String) : List String := (Word.ofLine line).map Word.text

end CommandShell
