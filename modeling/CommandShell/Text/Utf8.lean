/-!
# UTF-8 with replacement

A byte sequence is cut from left to right into pieces. A piece is the encoding of one scalar
value, or a maximal invalid part: the longest beginning of some encoding that cannot be completed
where it stands, or else a single byte. The text of a byte sequence is the sequence of these
scalar values, with one replacement character for each invalid part.

What may follow a byte is said once, by `expectedAfter`: the range of the byte that comes next
leaves out overlong forms, surrogates and everything above U+10FFFF, so no decoded value is
tested afterwards. A step gives back no more bytes than it was given (`length_next_le`), which is
why the cut comes to an end.
-/

namespace CommandShell
namespace Utf8

/-- A stretch of a byte sequence: one encoded scalar value, or bytes that encode nothing. -/
inductive Piece where
  | scalar (c : Char)
  | invalid (bytes : List UInt8)
deriving DecidableEq

/-- The character that stands for an invalid part. -/
def replacement : Char := '\uFFFD'

/-- The character that a piece contributes to the decoded text. -/
def Piece.char : Piece → Char
  | scalar c => c
  | invalid _ => replacement

/-- What an unfinished encoding needs next: a byte from `low` to `high`, and then `more` further
continuation bytes. The bits read so far are `value`. -/
structure Expected where
  value : Nat
  low : UInt8
  high : UInt8
  more : Nat

/-- What has to follow the first byte of an encoding of two to four bytes; `none` for a byte that
begins no such encoding. -/
def expectedAfter (b : UInt8) : Option Expected :=
  if 0xC2 ≤ b ∧ b ≤ 0xDF then some ⟨b.toNat - 0xC0, 0x80, 0xBF, 0⟩
  else if b = 0xE0 then some ⟨0x0, 0xA0, 0xBF, 1⟩
  else if b = 0xED then some ⟨0xD, 0x80, 0x9F, 1⟩
  else if 0xE1 ≤ b ∧ b ≤ 0xEF then some ⟨b.toNat - 0xE0, 0x80, 0xBF, 1⟩
  else if b = 0xF0 then some ⟨0x0, 0x90, 0xBF, 2⟩
  else if 0xF1 ≤ b ∧ b ≤ 0xF3 then some ⟨b.toNat - 0xF0, 0x80, 0xBF, 2⟩
  else if b = 0xF4 then some ⟨0x4, 0x80, 0x8F, 2⟩
  else none

/-- Completes an encoding whose bytes `seen` were read, as far as the following bytes allow. The
answer is the piece and the bytes after it. -/
def complete (seen : List UInt8) (e : Expected) : List UInt8 → Piece × List UInt8
  | [] => (.invalid seen, [])
  | b :: rest =>
    if e.low ≤ b ∧ b ≤ e.high then
      let value := e.value * 64 + (b.toNat - 0x80)
      match e.more with
      | 0 => (.scalar (Char.ofNat value), rest)
      | more + 1 => complete (seen ++ [b]) ⟨value, 0x80, 0xBF, more⟩ rest
    else (.invalid seen, b :: rest)

/-- The piece that begins with the byte `b`, and the bytes after it. -/
def next (b : UInt8) (rest : List UInt8) : Piece × List UInt8 :=
  if b < 0x80 then (.scalar (Char.ofNat b.toNat), rest)
  else match expectedAfter b with
    | none => (.invalid [b], rest)
    | some e => complete [b] e rest

theorem length_complete_le (seen : List UInt8) (e : Expected) (bytes : List UInt8) :
    (complete seen e bytes).2.length ≤ bytes.length := by
  induction bytes generalizing seen e with
  | nil => simp [complete]
  | cons b rest ih =>
    rw [complete]
    split
    · split
      · simp
      · exact Nat.le_succ_of_le (ih _ _)
    · simp

theorem length_next_le (b : UInt8) (rest : List UInt8) : (next b rest).2.length ≤ rest.length := by
  rw [next]
  split
  · exact Nat.le_refl _
  · split
    · exact Nat.le_refl _
    · exact length_complete_le _ _ _

/-- The cut of a byte sequence into encoded scalar values and maximal invalid parts. -/
def pieces : List UInt8 → List Piece
  | [] => []
  | b :: rest => (next b rest).1 :: pieces (next b rest).2
termination_by bytes => bytes.length
decreasing_by exact Nat.lt_succ_of_le (length_next_le b rest)

/-- The text of a byte sequence, as characters. -/
def decodeChars (bytes : List UInt8) : List Char := (pieces bytes).map Piece.char

/-- The text of a byte sequence: invalid parts become replacement characters. -/
def decode (bytes : List UInt8) : String := String.ofList (decodeChars bytes)

/-- The text of a finished line, which is taken from valid bytes as they are and decoded only if
there are others. It is no other text than the decoded one. -/
def asText (bytes : List UInt8) : String :=
  (String.fromUTF8? bytes.toByteArray).getD (decode bytes)

/-- The bytes of a text. -/
def encodeChars (chars : List Char) : List UInt8 := chars.flatMap String.utf8EncodeChar

/-- The bytes of a text. -/
def encode (text : String) : List UInt8 := encodeChars text.toList

/-- The bytes that a piece was cut from. -/
def Piece.bytes : Piece → List UInt8
  | scalar c => String.utf8EncodeChar c
  | invalid bytes => bytes

/-- Every piece is an encoded scalar value. -/
def isValid (bytes : List UInt8) : Bool :=
  (pieces bytes).all fun
    | .scalar _ => true
    | .invalid _ => false

end Utf8
end CommandShell
