import CommandShell.Text.Numeral
import CommandShell.Text.Quotation

/-!
# Formats

A format is a text with escapes and with directives, which are filled in with operands. It is used
again while operands are left. Writers of formats differ in their escapes, in the directives that
they allow and in what they say about operands; a style holds these differences.
-/

namespace CommandShell
namespace Format

/-! ## Directives -/

/-- A width or a precision. -/
inductive Amount where
  | absent
  | given (number : Nat)
  /-- It is the next operand. -/
  | operand
deriving DecidableEq

/-- A directive of a format. -/
structure Directive where
  flags : List Char
  width : Amount
  precision : Amount
  /-- Missing where the format ends too early. -/
  letter? : Option Char
  /-- The directive as it was written. -/
  text : List Char

/-- Takes a width or the digits of a precision from the start of a text. -/
def takeAmount : List Char → Amount × List Char
  | '*' :: rest => (.operand, rest)
  | chars =>
    match takeDigits 10 chars.length chars with
    | (_, 0, rest) => (.absent, rest)
    | (number, _, rest) => (.given number, rest)

/-- Takes a precision with its point from the start of a text. A point alone stands for zero. -/
def takePrecision : List Char → Amount × List Char
  | '.' :: rest =>
    match takeAmount rest with
    | (.absent, rest) => (.given 0, rest)
    | taken => taken
  | chars => (.absent, chars)

/-- Takes a directive from the start of a text, after its percent sign. -/
def takeDirective (flagChars lengthChars : List Char) (chars : List Char) :
    Directive × List Char :=
  let flags := chars.takeWhile flagChars.contains
  let (width, rest) := takeAmount (chars.dropWhile flagChars.contains)
  let (precision, rest) := takePrecision rest
  let afterLength := rest.dropWhile lengthChars.contains
  let written (rest : List Char) : List Char := '%' :: chars.take (chars.length - rest.length)
  match afterLength with
  | [] => (⟨flags, width, precision, none, written []⟩, [])
  | letter :: rest => (⟨flags, width, precision, some letter, written rest⟩, rest)

/-! ## Styles -/

/-- What can be said about an operand. -/
inductive Remark where
  | fit (f : Numeral.Fit)
  /-- Something follows the one character whose number was asked for. -/
  | moreCharacters (rest : List UInt8)
  | badWidth
  | badPrecision

/-- What a writer of formats does in its own way. -/
structure Style where
  formatEscapes : Escapes.Dialect
  textEscapes : Escapes.Dialect
  flagChars : List Char
  lengthChars : List Char
  precision : Numeral.Precision
  /-- A quotation mark with no character after it stands for the number zero. -/
  loneMark : Bool
  allows : Directive → Bool
  /-- The complaint about a directive that is not allowed. -/
  badDirective : Directive → String
  /-- The complaint about an operand, if there is one. -/
  remark : Remark → (operand : String) → Option (List UInt8)
  /-- The exit code after a complaint that ends the writing. -/
  failure : Nat
  /-- The exit code where an escape ends the writing, unless it depends on earlier complaints. -/
  endCode? : Option Nat

/-! ## Writing -/

/-- The progress of writing: the output and the complaints, in reverse; the operands that are
left; the exit code; and whether the writing has ended. -/
structure State where
  output : List (List UInt8 ⊕ List UInt8)
  operands : List String
  code : Nat
  ended : Bool

namespace State

/-- Writes bytes. -/
def put (s : State) (bytes : List UInt8) : State := { s with output := .inl bytes :: s.output }

/-- Complains and goes on. -/
def say (s : State) (text : List UInt8) : State := { s with output := .inr text :: s.output }

/-- Ends the writing. -/
def finish (s : State) : State := { s with ended := true }

/-- Complains, and ends the writing. -/
def fail (style : Style) (s : State) (text : List UInt8) : State :=
  { (s.say text).finish with code := style.failure }

/-- Writes an expanded text, and ends if it says so. -/
def putExpanded (style : Style) (s : State) (e : Escapes.Expanded) : State :=
  let s := s.put e.bytes
  match e.stop? with
  | none => s
  | some .ended => { s.finish with code := style.endCode?.getD s.code }
  | some (.failed message) => s.fail style (Utf8.encode message)

/-- Takes the next operand, if there is one. -/
def take (s : State) : Option String × State :=
  (s.operands.head?, { s with operands := s.operands.drop 1 })

/-- Says what there is to say about an operand. -/
def note (style : Style) (s : State) (r : Remark) (operand : String) : State :=
  let s := match style.remark r operand with
    | some text => s.say text
    | none => s
  match r with
  | .fit .whole | .moreCharacters _ => s
  | _ => { s with code := max s.code 1 }

/-- The number of the character after a quotation mark, and the bytes after that. -/
def character? (style : Style) (operand : String) : Option (Nat × List UInt8) :=
  match Utf8.encode operand with
  | 0x22 :: b :: rest | 0x27 :: b :: rest => some (b.toNat, rest)
  | [0x22] | [0x27] => if style.loneMark then some (0, []) else none
  | _ => none

/-- Takes a number from the operands. -/
def takeNumber {α : Type} (style : Style) (ofCharacter : Nat → α)
    (read : String → α × Numeral.Fit) (s : State) : α × State :=
  let (operand?, s) := s.take
  let operand := operand?.getD ""
  match character? style operand with
  | some (number, []) => (ofCharacter number, s)
  | some (number, rest) => (ofCharacter number, s.note style (.moreCharacters rest) operand)
  | none =>
    let (value, fit) := read operand
    (value, if fit = .whole then s else s.note style (.fit fit) operand)

/-- The largest width or precision. -/
def largestAmount : Int := (Nat.pow 2 31 : Nat) - 1

/-- The value of a width or a precision. One that is an operand is too large if it leaves the
range of 32 bits. -/
def amount (style : Style) (tooLarge : Remark) (a : Amount) (s : State) : Option Int × State :=
  match a with
  | .absent => (none, s)
  | .given number => (some number, s)
  | .operand =>
    let operand := s.operands.headD ""
    let (value, s) := s.takeNumber style Int.ofNat Numeral.readSigned
    if value < -largestAmount - 1 ∨ largestAmount < value then
      let s := match style.remark tooLarge operand with
        | some text => s.fail style text
        | none => s
      (none, s)
    else (some value, s)

/-- How a directive lays out its operand. A negative width puts the operand to the left, and a
negative precision is none. -/
def layout (style : Style) (d : Directive) (s : State) : Numeral.Layout × State :=
  let (width?, s) := s.amount style .badWidth d.width
  let (precision?, s) := if s.ended then (none, s) else s.amount style .badPrecision d.precision
  let width := width?.getD 0
  let flags := if width < 0 then '-' :: d.flags else d.flags
  (⟨flags, width.natAbs, precision?.bind fun p => if p < 0 then none else some p.toNat⟩, s)

/-- Writes the next operand as the directive with the given letter says. -/
def convert (style : Style) (l : Numeral.Layout) (letter : Char) (s : State) : State :=
  let putChars (result : List Char × State) : State := result.2.put (Utf8.encodeChars result.1)
  if letter = 'd' || letter = 'i' then
    let (value, s) := s.takeNumber style Int.ofNat Numeral.readSigned
    putChars (l.integer letter value, s)
  else if "ouxX".toList.contains letter then
    let (value, s) := s.takeNumber style Int.ofNat Numeral.readUnsigned
    putChars (l.integer letter value, s)
  else if "aAeEfFgG".toList.contains letter then
    let ofCharacter (number : Nat) : Numeral.Real := .finite false number 1
    let (value, s) := s.takeNumber style ofCharacter (Numeral.readReal style.precision)
    putChars (l.real style.precision letter value, s)
  else
    let (operand?, s) := s.take
    let operand := operand?.getD ""
    let bytes := Utf8.encode operand
    if letter = 'q' then
      s.put ((operand?.map fun operand => Utf8.encode (Quotation.typedUnless [] operand)).getD [])
    else if letter = 'c' then s.put ({ l with precision? := none }.bytes [bytes.headD 0])
    else s.put (l.bytes bytes)

/-- Writes the next operand with its escapes. -/
def convertEscaped (style : Style) (l : Numeral.Layout) (s : State) : State :=
  let (operand?, s) := s.take
  let e := Escapes.expand style.textEscapes (operand?.getD "")
  s.putExpanded style { e with bytes := l.bytes e.bytes }

/-- Fills in a directive. -/
def fillIn (style : Style) (d : Directive) (s : State) : State :=
  let (l, s) := s.layout style d
  if s.ended then s
  else match d.letter? with
    | some letter =>
      if !style.allows d then s.fail style (Utf8.encode (style.badDirective d))
      else if letter = 'b' then s.convertEscaped style l
      else s.convert style l letter
    | none => s.fail style (Utf8.encode (style.badDirective d))

/-- Writes at most `limit` elements of a format. -/
def writeUpTo (style : Style) : (limit : Nat) → List Char → State → State
  | 0, _, s => s
  | _, [], s => s
  | limit + 1, c :: rest, s =>
    if s.ended then s
    else if c = '\\' then
      let (e, rest) := Escapes.readEscape style.formatEscapes rest
      writeUpTo style limit rest (s.putExpanded style e)
    else if c = '%' then
      match rest with
      | '%' :: rest => writeUpTo style limit rest (s.put [0x25])
      | rest =>
        let (d, rest) := takeDirective style.flagChars style.lengthChars rest
        writeUpTo style limit rest (s.fillIn style d)
    else writeUpTo style limit rest (s.put (String.utf8EncodeChar c))

/-- Writes a format again while that uses up operands, at most `times` times. -/
def writeAgain (style : Style) (format : List Char) : (times : Nat) → State → State
  | 0, s => s
  | times + 1, s =>
    if s.ended || s.operands.isEmpty then s
    else
      let next := s.writeUpTo style format.length format
      if next.operands.length < s.operands.length then next.writeAgain style format times else next

end State

/-- Takes the bytes between complaints together. -/
def joinBytes : List (List UInt8 ⊕ List UInt8) → List (List UInt8 ⊕ List UInt8)
  | [] => []
  | .inr text :: rest => .inr text :: joinBytes rest
  | .inl bytes :: rest =>
    match joinBytes rest with
    | .inl more :: rest => .inl (bytes ++ more) :: rest
    | rest => .inl bytes :: rest

/-- What is written, with complaints in between, the exit code, and the operands that were not
used. -/
structure Written where
  output : List (List UInt8 ⊕ List UInt8)
  code : Nat
  unused : List String

/-- Writes operands by a format. -/
def write (style : Style) (format : String) (operands : List String) : Written :=
  let chars := format.toList
  let once := State.writeUpTo style chars.length chars ⟨[], operands, 0, false⟩
  let s :=
    if once.operands.length < operands.length then
      once.writeAgain style chars operands.length
    else once
  ⟨joinBytes s.output.reverse, s.code, if s.ended then [] else s.operands⟩

end Format
end CommandShell
