import CommandShell.Text.Utf8

/-!
# Names in messages

How utilities write the name of a file in a message, so that its end and its characters can be
told. One way puts it between apostrophes and escapes what is no visible ASCII character; the
other writes it as it would be typed on a command line, and only if necessary with quotes.
-/

namespace CommandShell
namespace Quotation

/-- A byte that is a visible ASCII character or a space. -/
def isVisible (b : UInt8) : Bool := 0x20 ≤ b && b < 0x7F

/-- The letter of the escape for a control character. -/
def controlLetter? (b : UInt8) : Option Char :=
  if b = 0x07 then some 'a'
  else if b = 0x08 then some 'b'
  else if b = 0x09 then some 't'
  else if b = 0x0A then some 'n'
  else if b = 0x0B then some 'v'
  else if b = 0x0C then some 'f'
  else if b = 0x0D then some 'r'
  else none

/-- The escape of a byte that is not visible, without its backslash. -/
def escapeBody (b : UInt8) : List Char :=
  match controlLetter? b with
  | some letter => [letter]
  | none => [b.toNat / 64, b.toNat / 8 % 8, b.toNat % 8].map Nat.digitChar

/-- A text between apostrophes, with escapes. -/
def escaped (text : String) : String :=
  let body := (Utf8.encode text).flatMap fun b =>
    let c := Char.ofNat b.toNat
    if c = '\\' ∨ c = '\x27' then ['\\', c]
    else if isVisible b then [c]
    else '\\' :: escapeBody b
  "'" ++ String.ofList body ++ "'"

/-! ## As typed on a command line -/

/-- A character that can stand between quotation marks as it is, at this position. -/
def isTame (position : Nat) (c : Char) : Bool :=
  c.isAlphanum || " '%+,-./:]_@".toList.contains c || (position = 0 && "#~".toList.contains c)

/-- The bytes of a text between apostrophes, where `open` says that a part with escapes was
begun. -/
def typedBody (escaping : Bool) : List UInt8 → List Char
  | [] => []
  | b :: rest =>
    let c := Char.ofNat b.toNat
    if c = '\x27' then "'\\''".toList ++ typedBody false rest
    else if isVisible b then
      (if escaping then "''".toList else []) ++ c :: typedBody false rest
    else
      (if escaping then [] else "'$'".toList) ++ '\\' :: escapeBody b ++ typedBody true rest

/-- A text as it would be typed, with quotes. One with an apostrophe is gone over twice, and a part
with escapes that ends the text counts as begun at its start. -/
def typed (text : String) : String :=
  let chars := text.toList
  let bytes := Utf8.encode text
  let isMild := chars.zipIdx.all fun (c, position) =>
    isTame position c || (chars.length = 1 && "\x7b\x7d".toList.contains c)
  let escaping := match bytes.getLast? with
    | some last => chars.contains '\x27' && !isVisible last
    | none => false
  if chars.contains '\x27' && isMild then "\"" ++ text ++ "\""
  else "'" ++ String.ofList (typedBody escaping bytes) ++ "'"

/-- A character that has a meaning on a command line, at this position. -/
def isSpecial (position : Nat) (c : Char) : Bool :=
  "\\ !\"$&()*;<=>[^|'?".toList.contains c || c == '\x60' ||
    (position = 0 && "#~".toList.contains c) || 0x7F ≤ c.toNat || c.toNat < 0x20

/-- A text as it would be typed, with quotes only if it needs them or has one of some more
characters. -/
def typedUnless (more : List Char) (text : String) : String :=
  let special := text.toList.zipIdx.any fun (c, position) =>
    isSpecial position c || more.contains c
  if text = "" || text = "\x7b" || text = "\x7d" || special then typed text else text

/-- A text as it would be typed in front of a colon, with quotes if it has a colon itself. -/
def typedIfNeeded (text : String) : String := typedUnless [':'] text

end Quotation
end CommandShell
