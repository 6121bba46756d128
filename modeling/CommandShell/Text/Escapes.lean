import CommandShell.Text.Utf8

/-!
# Backslash escapes

A backslash and what follows it stand for a byte or a character. Which escapes there are differs
from one writer of texts to the next; a dialect says what it has beside the common ones.
-/

namespace CommandShell

/-- The value of a digit to a base of at most sixteen. -/
def digitValue? (base : Nat) (c : Char) : Option Nat :=
  let value :=
    if c.isDigit then some (c.toNat - '0'.toNat)
    else if 'a' ≤ c ∧ c ≤ 'f' then some (c.toNat - 'a'.toNat + 10)
    else if 'A' ≤ c ∧ c ≤ 'F' then some (c.toNat - 'A'.toNat + 10)
    else none
  value.filter (· < base)

/-- Takes at most `most` digits from the start of a text. The answer is their value, their number
and the rest. -/
def takeDigits (base : Nat) : (most : Nat) → List Char → Nat × Nat × List Char
  | most, chars => go 0 0 most chars
where
  /-- Goes on after `count` digits with the value `value`. -/
  go (value count : Nat) : (most : Nat) → List Char → Nat × Nat × List Char
    | 0, chars => (value, count, chars)
    | _, [] => (value, count, [])
    | more + 1, c :: rest =>
      match digitValue? base c with
      | some digit => go (value * base + digit) (count + 1) more rest
      | none => (value, count, c :: rest)

namespace Escapes

/-- The escapes that a writer of texts has beside those for control characters and for bytes of
three octal digits. -/
structure Dialect where
  /-- The three digits of a byte may follow a zero. -/
  zeroFirst : Bool := false
  /-- `\x` and at most two hexadecimal digits are a byte. -/
  hexadecimal : Bool := false
  /-- `\"` is a quotation mark. -/
  quotationMark : Bool := false
  /-- `\u` and `\U` with four and eight hexadecimal digits are a character. -/
  universal : Bool := false
  /-- `\c` ends the output. -/
  ends : Bool := false
  /-- An escape whose digits are missing is an error; otherwise it is taken as it is written. -/
  strict : Bool := false
  /-- A character after a backslash that is no escape is read like any other. -/
  loose : Bool := false

/-- Why the writing of a text went no further. -/
inductive Stop where
  | ended
  | failed (message : String)

/-- Bytes to be written, and whether something stopped the writing after them. -/
structure Expanded where
  bytes : List UInt8
  stop? : Option Stop := none

/-- Puts bytes before an expanded text. -/
def Expanded.after (bytes : List UInt8) (e : Expanded) : Expanded :=
  { e with bytes := bytes ++ e.bytes }

/-- The control character of a one-letter escape. -/
def control? : Char → Option UInt8
  | 'a' => some 0x07
  | 'b' => some 0x08
  | 'e' => some 0x1B
  | 'f' => some 0x0C
  | 'n' => some 0x0A
  | 'r' => some 0x0D
  | 't' => some 0x09
  | 'v' => some 0x0B
  | '\\' => some 0x5C
  | _ => none

/-- A number with at least `width` hexadecimal digits. -/
def hexadecimalText (capital : Bool) (width number : Nat) : List Char :=
  let digits := Nat.toDigits 16 number
  let digits := if capital then digits.map Char.toUpper else digits
  List.replicate (width - digits.length) '0' ++ digits

/-- The character of a number. Outside of ASCII it is written as an escape again. -/
def universalBytes (letter : Char) (width number : Nat) : Expanded :=
  if 0xD800 ≤ number ∧ number ≤ 0xDFFF then
    let digits := String.ofList (letter :: hexadecimalText false width number)
    ⟨[], some (.failed ("invalid universal character name \\" ++ digits))⟩
  else if number < 0x80 then ⟨[UInt8.ofNat number], none⟩
  else
    let (letter, width) := if number < 0x10000 then ('u', 4) else ('U', 8)
    ⟨Utf8.encodeChars ('\\' :: letter :: hexadecimalText true width number), none⟩

/-- What is said where digits are missing. -/
def missingDigits : Stop := .failed "missing hexadecimal number in escape"

/-- Reads what follows a backslash. The answer is what it stands for, and the rest. -/
def readEscape (d : Dialect) : List Char → Expanded × List Char
  | [] => (⟨[0x5C], none⟩, [])
  | c :: rest =>
    let asWritten : Expanded × List Char :=
      if d.loose then (⟨[0x5C], none⟩, c :: rest)
      else (⟨0x5C :: String.utf8EncodeChar c, none⟩, rest)
    if (digitValue? 8 c).isSome then
      let (value, _, rest) := takeDigits 8 3 (if d.zeroFirst && c = '0' then rest else c :: rest)
      (⟨[UInt8.ofNat value], none⟩, rest)
    else if c = 'x' && d.hexadecimal then
      match takeDigits 16 2 rest with
      | (_, 0, _) => if d.strict then (⟨[], some missingDigits⟩, []) else asWritten
      | (value, _, rest) => (⟨[UInt8.ofNat value], none⟩, rest)
    else if (c = 'u' || c = 'U') && d.universal then
      let width := if c = 'u' then 4 else 8
      let (value, count, rest) := takeDigits 16 width rest
      if count < width then (⟨[], some missingDigits⟩, []) else (universalBytes c width value, rest)
    else if c = 'c' && d.ends then (⟨[], some .ended⟩, [])
    else if c = '"' && d.quotationMark then (⟨[0x22], none⟩, rest)
    else match control? c with
      | some b => (⟨[b], none⟩, rest)
      | none => asWritten

/-- Expands the escapes in at most `limit` elements of a text. -/
def expandUpTo (d : Dialect) : (limit : Nat) → List Char → Expanded
  | 0, _ => ⟨[], none⟩
  | _, [] => ⟨[], none⟩
  | limit + 1, '\\' :: rest =>
    let (e, rest) := readEscape d rest
    if e.stop?.isSome then e else (expandUpTo d limit rest).after e.bytes
  | limit + 1, c :: rest => (expandUpTo d limit rest).after (String.utf8EncodeChar c)

/-- Expands the escapes of a text. -/
def expand (d : Dialect) (text : String) : Expanded :=
  expandUpTo d text.toList.length text.toList

end Escapes
end CommandShell
