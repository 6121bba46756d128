import CommandShell.Text.Escapes

/-!
# Numerals

Numbers as they are written: reading integers and decimal fractions from the start of a text, and
writing them in the forms that formats ask for.

A decimal fraction is read as a fraction of integers and then rounded to so many binary digits, a
half going to the even neighbour; it is written with so many decimal digits by the same rule.
-/

namespace CommandShell
namespace Numeral

/-! ## Reading -/

/-- How well a text could be read as a number. -/
inductive Fit where
  | whole
  /-- A number stands at the start, and something else follows. -/
  | partly
  | notAtAll
  | outOfRange
deriving DecidableEq

/-- A blank before a number. -/
def isBlank (c : Char) : Bool := c == ' ' || ('\t' ≤ c && c ≤ '\r')

/-- Takes a sign from the start of a text. -/
def takeSign : List Char → Bool × List Char
  | '-' :: rest => (true, rest)
  | '+' :: rest => (false, rest)
  | chars => (false, chars)

/-- Takes an unsigned integer from the start of a text: after `0x` to the base sixteen, after `0b`
to the base two, and after another zero to the base eight. -/
def takeMagnitude (chars : List Char) : Nat × Nat × List Char :=
  let most := chars.length
  let afterMark (base : Nat) (rest : List Char) : Nat × Nat × List Char :=
    match takeDigits base most rest with
    | (_, 0, _) => (0, 1, chars.drop 1)
    | taken => taken
  match chars with
  | '0' :: 'x' :: rest | '0' :: 'X' :: rest => afterMark 16 rest
  | '0' :: 'b' :: rest | '0' :: 'B' :: rest => afterMark 2 rest
  | '0' :: _ => takeDigits 8 most chars
  | _ => takeDigits 10 most chars

/-- Reads an integer. An empty text is zero. -/
def readInteger (text : String) : Int × Fit :=
  let (negative, chars) := takeSign (text.toList.dropWhile isBlank)
  match takeMagnitude chars with
  | (_, 0, _) => (0, if text = "" then .whole else .notAtAll)
  | (value, _, rest) =>
    (if negative then -(value : Int) else value, if rest.isEmpty then .whole else .partly)

/-- Reads a decimal integer of 64 bits, which may have blanks around it. -/
def decimal? (text : String) : Option Int :=
  let trimmed := (text.toList.reverse.dropWhile isBlank).reverse
  let (negative, digits) := takeSign (trimmed.dropWhile isBlank)
  match takeDigits 10 digits.length digits with
  | (_, 0, _) | (_, _, _ :: _) => none
  | (value, _, []) =>
    let value : Int := if negative then -(value : Int) else value
    if -(Nat.pow 2 63 : Nat) ≤ value ∧ value < (Nat.pow 2 63 : Nat) then some value else none

/-- The end of the range of words of 64 bits. -/
def wordEnd : Int := (Nat.pow 2 64 : Nat)

/-- Reads a signed integer of 64 bits; one that is too large becomes the largest. -/
def readSigned (text : String) : Int × Fit :=
  let (value, fit) := readInteger text
  if value < -(wordEnd / 2) then (-(wordEnd / 2), .outOfRange)
  else if wordEnd / 2 ≤ value then (wordEnd / 2 - 1, .outOfRange)
  else (value, fit)

/-- Reads an unsigned integer of 64 bits; a negative one is taken modulo the range. -/
def readUnsigned (text : String) : Int × Fit :=
  let (value, fit) := readInteger text
  if value ≤ -wordEnd ∨ wordEnd ≤ value then (wordEnd - 1, .outOfRange)
  else (value % wordEnd, fit)

/-! ## Fractions -/

/-- A number that is written with a decimal point: a sign and a fraction, or no finite number. -/
inductive Real where
  | finite (negative : Bool) (numerator denominator : Nat)
  | infinite (negative : Bool)
  | notANumber (negative : Bool)

/-- The nearest integer to a fraction; of two the even one. -/
def roundDiv (numerator denominator : Nat) : Nat :=
  let whole := numerator / denominator
  let rest := numerator % denominator * 2
  if rest < denominator then whole
  else if denominator < rest then whole + 1
  else whole + whole % 2

/-- The integer part of the binary logarithm of a fraction that is not zero. -/
def exponentOf (numerator denominator : Nat) : Int :=
  let guess : Int := (Nat.log2 numerator : Int) - Nat.log2 denominator
  let below : Bool :=
    if 0 ≤ guess then numerator < denominator * Nat.pow 2 guess.toNat
    else numerator * Nat.pow 2 (-guess).toNat < denominator
  if below then guess - 1 else guess

/-- The nearest multiple of a power of two to a fraction; of two the even one. -/
def roundAt (power : Int) (numerator denominator : Nat) : Nat × Nat :=
  let unit := Nat.pow 2 power.natAbs
  if 0 ≤ power then (roundDiv numerator (denominator * unit) * unit, 1)
  else (roundDiv (numerator * unit) denominator, unit)

/-- The sizes of the binary numbers that fractions are kept in. -/
structure Precision where
  bits : Nat
  largestExponent : Nat

namespace Precision

/-- Smaller numbers than two to this power are kept with fewer digits. -/
def leastExponent (p : Precision) : Int := 1 - p.largestExponent

/-- The place of the last binary digit of a fraction that is not zero. -/
def lastPlace (p : Precision) (numerator denominator : Nat) : Int :=
  max (exponentOf numerator denominator) p.leastExponent - (p.bits - 1)

/-- A fraction as it is kept. -/
def round (p : Precision) (numerator denominator : Nat) : Nat × Nat :=
  if numerator = 0 then (0, 1)
  else roundAt (p.lastPlace numerator denominator) numerator denominator

/-- A fraction is too small to be kept: it stays below the least power even if it is rounded to all
the digits, and it is not kept as it is. -/
def isTooSmall (p : Precision) (numerator denominator : Nat) : Bool :=
  let exponent := exponentOf numerator denominator
  let (atBest, unit) := roundAt (exponent - (p.bits - 1)) numerator denominator
  let (kept, keptUnit) := p.round numerator denominator
  0 < numerator && exponentOf atBest unit < p.leastExponent
    && kept * denominator != numerator * keptUnit

end Precision

/-- Takes the exponent of a number, after its letter: a sign and digits. Without digits there is no
exponent. -/
def takeExponent (letters : List Char) (chars : List Char) : Int × List Char :=
  match chars with
  | c :: rest =>
    if letters.contains c then
      let (negative, digits) := takeSign rest
      match takeDigits 10 digits.length digits with
      | (_, 0, _) => (0, chars)
      | (value, _, rest) => (if negative then -(value : Int) else value, rest)
    else (0, chars)
  | [] => (0, [])

/-- Takes an unsigned fraction to a base from the start of a text: its digits as one number, how
many of them stand after the point, how many there are, and the rest. -/
def takeFraction (base : Nat) (chars : List Char) : Nat × Nat × Nat × List Char :=
  let (whole, count, rest) := takeDigits base chars.length chars
  match rest with
  | '.' :: after =>
    let (value, more, rest) := takeDigits.go base whole 0 after.length after
    if count + more = 0 then (0, 0, 0, chars) else (value, more, count + more, rest)
  | _ => (whole, 0, count, rest)

/-- A text without differences between capital and small letters starts like this. -/
def takeWord? (word : String) (chars : List Char) : Option (List Char) :=
  if (chars.take word.length).map Char.toLower = word.toList then some (chars.drop word.length)
  else none

/-- The largest exponent that is taken at its word. -/
def mostExponent : Nat := 20000

/-- Reads a number with a decimal point. An empty text is zero. -/
def readReal (p : Precision) (text : String) : Real × Fit :=
  let (negative, chars) := takeSign (text.toList.dropWhile isBlank)
  let fit (rest : List Char) : Fit := if rest.isEmpty then .whole else .partly
  match takeWord? "infinity" chars, takeWord? "inf" chars, takeWord? "nan" chars with
  | some rest, _, _ => (.infinite negative, fit rest)
  | _, some rest, _ => (.infinite negative, fit rest)
  | _, _, some rest => (.notANumber negative, fit rest)
  | none, none, none =>
    let (base, start, letters) := match chars with
      | '0' :: 'x' :: rest | '0' :: 'X' :: rest => (16, rest, ['p', 'P'])
      | _ => (10, chars, ['e', 'E'])
    match takeFraction base start with
    | (_, _, 0, _) =>
      if base = 16 then (.finite negative 0 1, .partly)
      else (.finite false 0 1, if text = "" then .whole else .notAtAll)
    | (value, places, _, rest) =>
      let (exponent, rest) := takeExponent letters rest
      let exponent := max (-(mostExponent : Int)) (min exponent mostExponent)
      let scale := if base = 16 then 2 else 10
      let numerator := value * Nat.pow scale exponent.toNat
      let denominator := Nat.pow base places * Nat.pow scale (-exponent).toNat
      let (kept, unit) := p.round numerator denominator
      if 0 < kept ∧ (p.largestExponent : Int) < exponentOf kept unit then
        (.infinite negative, .outOfRange)
      else
        (.finite negative kept unit,
          if p.isTooSmall numerator denominator then .outOfRange else fit rest)

/-! ## Writing -/

/-- How a number or a text is laid out. -/
structure Layout where
  flags : List Char
  width : Nat
  precision? : Option Nat

namespace Layout

/-- The flag is given. -/
def has (l : Layout) (flag : Char) : Bool := l.flags.contains flag

/-- Fills a text up to the width: at its end, or before it with blanks, or after its sign with
zeros if that is allowed. -/
def fill (l : Layout) (zeros : Bool) (sign body : List Char) : List Char :=
  let missing := l.width - (sign.length + body.length)
  if l.has '-' then sign ++ body ++ List.replicate missing ' '
  else if zeros && l.has '0' then sign ++ List.replicate missing '0' ++ body
  else List.replicate missing ' ' ++ sign ++ body

/-- The sign of a number. -/
def sign (l : Layout) (negative : Bool) : List Char :=
  if negative then ['-'] else if l.has '+' then ['+'] else if l.has ' ' then [' '] else []

/-- Writes an integer with at least as many digits as the precision says. -/
def integer (l : Layout) (letter : Char) (value : Int) : List Char :=
  let base := if letter = 'o' then 8 else if letter = 'x' ∨ letter = 'X' then 16 else 10
  let magnitude := value.natAbs
  let digits := if magnitude = 0 ∧ l.precision? = some 0 then [] else Nat.toDigits base magnitude
  let least := l.precision?.getD 0
  let digits := List.replicate (least - digits.length) '0' ++ digits
  let digits := if base = 8 && l.has '#' && digits.head? != some '0' then '0' :: digits else digits
  let mark := if base = 16 ∧ l.has '#' ∧ magnitude ≠ 0 then ['0', 'x'] else []
  let sign := if letter = 'd' ∨ letter = 'i' then l.sign (value < 0) else []
  let text := l.fill l.precision?.isNone (sign ++ mark) digits
  if letter = 'X' then text.map Char.toUpper else text

/-- Puts a point before the last `places` digits. A point at the end is written only if it is
asked for. -/
def withPoint (point : Bool) (places : Nat) (digits : List Char) : List Char :=
  let digits := List.replicate (places + 1 - digits.length) '0' ++ digits
  let whole := digits.take (digits.length - places)
  if places = 0 then if point then whole ++ ['.'] else whole
  else whole ++ '.' :: digits.drop (digits.length - places)

/-- Writes a fraction with so many digits after the point. -/
def positional (point : Bool) (places numerator denominator : Nat) : List Char :=
  withPoint point places (Nat.toDigits 10 (roundDiv (numerator * Nat.pow 10 places) denominator))

/-- The integer part of the decimal logarithm of a fraction that is not zero, found by going down
from `guess`. -/
def decimalExponent (numerator denominator : Nat) : (steps : Nat) → (guess : Int) → Int
  | 0, guess => guess
  | steps + 1, guess =>
    let reached : Bool :=
      if 0 ≤ guess then denominator * Nat.pow 10 guess.toNat ≤ numerator
      else denominator ≤ numerator * Nat.pow 10 (-guess).toNat
    if reached then guess else decimalExponent numerator denominator steps (guess - 1)

/-- The digits of a fraction before an exponent, one more than `places`, and the exponent. -/
def scientificDigits (places numerator denominator : Nat) : List Char × Int :=
  if numerator = 0 then (List.replicate (places + 1) '0', 0)
  else
    let guess : Int :=
      (Nat.toDigits 10 numerator).length - ((Nat.toDigits 10 denominator).length : Int) + 1
    let exponent := decimalExponent numerator denominator 3 guess
    let shift := (places : Int) - exponent
    let value := roundDiv (numerator * Nat.pow 10 shift.toNat)
      (denominator * Nat.pow 10 (-shift).toNat)
    let digits := Nat.toDigits 10 value
    if places + 1 < digits.length then (digits.take (places + 1), exponent + 1)
    else (digits, exponent)

/-- The text of an exponent, with at least two digits. -/
def exponentText (exponent : Int) : List Char :=
  let digits := Nat.toDigits 10 exponent.natAbs
  'e' :: (if exponent < 0 then '-' else '+') :: List.replicate (2 - digits.length) '0' ++ digits

/-- Takes away zeros at the end of a fraction, and a point without digits after it. -/
def withoutZeros (chars : List Char) : List Char :=
  if chars.contains '.' then
    let kept := chars.reverse.dropWhile (· = '0')
    (if kept.head? = some '.' then kept.drop 1 else kept).reverse
  else chars

/-- The digits of a number with a point by one of the letters `f`, `e` and `g`. -/
def realDigits (l : Layout) (letter : Char) (numerator denominator : Nat) : List Char :=
  let places := l.precision?.getD 6
  let point := l.has '#'
  match letter with
  | 'f' => positional point places numerator denominator
  | 'e' =>
    let (digits, exponent) := scientificDigits places numerator denominator
    withPoint point places digits ++ exponentText exponent
  | _ =>
    let size := max places 1
    let (digits, exponent) := scientificDigits (size - 1) numerator denominator
    let tidy (chars : List Char) : List Char := if point then chars else withoutZeros chars
    if exponent < -4 ∨ (size : Int) ≤ exponent then
      tidy (withPoint point (size - 1) digits) ++ exponentText exponent
    else tidy (positional point ((size : Int) - 1 - exponent).toNat numerator denominator)

/-- The digits of a number to the base sixteen, with its binary exponent. The first digit holds
what is left of the binary digits if each other digit takes four of them. -/
def hexadecimal (l : Layout) (p : Precision) (numerator denominator : Nat) : List Char :=
  let most := (p.bits - 1) / 4
  let lastPlace := if numerator = 0 then 1 - (p.bits : Int) else p.lastPlace numerator denominator
  let (whole, unit) := roundAt lastPlace numerator denominator
  let whole := whole * Nat.pow 2 (-lastPlace).toNat / (unit * Nat.pow 2 lastPlace.toNat)
  let places := l.precision?.getD most
  let value :=
    roundDiv (whole * Nat.pow 16 (places - most)) (Nat.pow 16 (most - places))
  let digits := Nat.toDigits 16 value
  let exponent := if numerator = 0 then 0 else lastPlace + 4 * most
  let (digits, exponent) :=
    if places + 1 < digits.length then (digits.take (places + 1), exponent + 4)
    else (digits, exponent)
  let text := withPoint true places digits
  let text := if l.precision?.isNone then (text.reverse.dropWhile (· = '0')).reverse else text
  let text := if !l.has '#' && text.getLast? = some '.' then text.dropLast else text
  text ++ 'p' :: (if exponent < 0 then '-' else '+') :: Nat.toDigits 10 exponent.natAbs

/-- Writes a number with a decimal point, or to the base sixteen if the letter is `a`. -/
def real (l : Layout) (p : Precision) (letter : Char) (value : Real) : List Char :=
  let text := match value with
    | .finite negative numerator denominator =>
      if letter.toLower = 'a' then
        l.fill true (l.sign negative ++ ['0', 'x']) (l.hexadecimal p numerator denominator)
      else l.fill true (l.sign negative) (l.realDigits letter.toLower numerator denominator)
    | .infinite negative => l.fill false (l.sign negative) "inf".toList
    | .notANumber negative => l.fill false (l.sign negative) "nan".toList
  if letter.isUpper then text.map Char.toUpper else text

/-- Writes bytes, at most as many as the precision says. -/
def bytes (l : Layout) (text : List UInt8) : List UInt8 :=
  let text := match l.precision? with
    | some most => text.take most
    | none => text
  let missing := List.replicate (l.width - text.length) 0x20
  if l.has '-' then text ++ missing else missing ++ text

end Layout
end Numeral
end CommandShell
