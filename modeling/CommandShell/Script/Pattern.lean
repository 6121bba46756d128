import CommandShell.Text.Utf8

/-!
# Patterns

A pattern is a text in which a star stands for any text, a question mark for any character and
brackets for one of some characters; characters that were quoted stand for themselves. Texts are
matched against patterns, and parts of texts are found that a pattern fits. What counts as one
character here is a byte.
-/

namespace CommandShell
namespace Script

/-- A character of a word and whether it was quoted. -/
structure Mark where
  char : Char
  quoted : Bool
deriving DecidableEq

namespace Pattern

/-- Characters that brackets stand for. -/
inductive Member where
  | range (first last : Char)
  | named (name : String)
deriving DecidableEq

/-- An element of a pattern. -/
inductive Element where
  | literal (c : Char)
  | anyText
  | anyChar
  | oneOf (negated : Bool) (members : List Member)
deriving DecidableEq

/-- Reads the name of a class of characters, after its opening. -/
def takeClass? (marks : List Mark) : Option (String × List Mark) :=
  let name := (marks.takeWhile fun m => m.char ≠ ':').map Mark.char
  match marks.dropWhile fun m => m.char ≠ ':' with
  | _ :: ⟨']', _⟩ :: rest => some (String.ofList name, rest)
  | _ => none

/-- Reads the members of brackets up to the closing one, which as the first is a member itself. -/
def takeMembers (isFirst : Bool) : (most : Nat) → List Mark → Option (List Member × List Mark)
  | 0, _ => none
  | _, [] => none
  | most + 1, m :: rest =>
    if m.char = ']' && !m.quoted && !isFirst then some ([], rest)
    else
      let add (member : Member) (rest : List Mark) : Option (List Member × List Mark) :=
        (takeMembers false most rest).map fun (members, rest) => (member :: members, rest)
      let plain : Option (List Member × List Mark) :=
        match rest with
        | ⟨'-', false⟩ :: last :: after =>
          if last.char = ']' && !last.quoted then add (.range m.char m.char) rest
          else add (.range m.char last.char) after
        | rest => add (.range m.char m.char) rest
      match m, rest with
      | ⟨'[', false⟩, ⟨':', false⟩ :: after =>
        match takeClass? after with
        | some (name, rest) => add (.named name) rest
        | none => plain
      | _, _ => plain

/-- Reads at most `most` elements of a pattern. Brackets that are not closed are plain
characters. -/
def readUpTo : (most : Nat) → List Mark → List Element
  | 0, _ => []
  | _, [] => []
  | most + 1, m :: rest =>
    match m with
    | ⟨'*', false⟩ => .anyText :: readUpTo most rest
    | ⟨'?', false⟩ => .anyChar :: readUpTo most rest
    | ⟨'[', false⟩ =>
      let (negated, members) := match rest with
        | ⟨'!', false⟩ :: rest => (true, rest)
        | rest => (false, rest)
      match takeMembers true members.length members with
      | some (members, rest) => .oneOf negated members :: readUpTo most rest
      | none => .literal '[' :: readUpTo most rest
    | ⟨c, _⟩ => .literal c :: readUpTo most rest

/-- The bytes of a character, each as the character of its number. -/
def units (c : Char) : List Char :=
  (String.utf8EncodeChar c).map fun b => Char.ofNat b.toNat

/-- The elements of a pattern. -/
def ofMarks (marks : List Mark) : List Element :=
  let bytes := marks.flatMap fun m => (units m.char).map fun c => ⟨c, m.quoted⟩
  readUpTo bytes.length bytes

/-- The character is of a class. -/
def isOfClass (name : String) (c : Char) : Bool :=
  match name with
  | "alpha" => c.isAlpha
  | "digit" => c.isDigit
  | "alnum" => c.isAlphanum
  | "upper" => c.isUpper
  | "lower" => c.isLower
  | "space" => c == ' ' || ('\t' ≤ c && c ≤ '\r')
  | "blank" => c == ' ' || c == '\t'
  | "punct" => '!' ≤ c && c ≤ '~' && !c.isAlphanum
  | "print" => ' ' ≤ c && c ≤ '~'
  | "graph" => '!' ≤ c && c ≤ '~'
  | "cntrl" => c < ' ' || c == '\x7F'
  | "xdigit" => c.isDigit || ('a' ≤ c && c ≤ 'f') || ('A' ≤ c && c ≤ 'F')
  | _ => false

/-- The character is a member. -/
def Member.has (c : Char) : Member → Bool
  | range first last => first ≤ c && c ≤ last
  | named name => isOfClass name c

/-- One character fits an element. -/
def Element.accepts (c : Char) : Element → Bool
  | literal d => c == d
  | anyText => true
  | anyChar => true
  | oneOf negated members => members.any (Member.has c) != negated

/-- Bytes fit a pattern. -/
def fitsUnits : List Element → List Char → Bool
  | [], text => text.isEmpty
  | .anyText :: pattern, [] => fitsUnits pattern []
  | .anyText :: pattern, c :: text =>
    fitsUnits pattern (c :: text) || fitsUnits (.anyText :: pattern) text
  | _ :: _, [] => false
  | e :: pattern, c :: text => e.accepts c && fitsUnits pattern text
termination_by pattern text => pattern.length + text.length

/-- A text fits a pattern. -/
def fits (pattern : List Element) (text : List Char) : Bool :=
  fitsUnits pattern (text.flatMap units)

/-- The pattern may fit more than one text. -/
def isOpen (pattern : List Element) : Bool :=
  pattern.any fun
    | .literal _ => false
    | _ => true

/-- The character between texts that are trimmed together. -/
def separator : Char := '\x00'

/-- Cuts the shortest or longest part that fits a pattern off a row of texts, at its start or end.
Of a part that goes over more than one text only that in the first of them has to fit, and the
places where the part may end or begin are gone through up to the first text if that is done from
the start. -/
def trim (atEnd longest : Bool) (pattern : List Element) (text : List Char) : List Char :=
  let bytes := text.flatMap units
  let reach := (bytes.takeWhile (· ≠ separator)).length
  let places := (List.range (bytes.length + 1)).filter fun place =>
    let part := if atEnd then bytes.drop place else bytes.take place
    (atEnd != longest || place ≤ reach) && fitsUnits pattern (part.takeWhile (· ≠ separator))
  match if atEnd == longest then places.head? else places.getLast? with
  | none => text
  | some place =>
    let kept := if atEnd then bytes.take place else bytes.drop place
    Utf8.decodeChars (kept.map fun c => c.toNat.toUInt8)

end Pattern
end Script
end CommandShell
