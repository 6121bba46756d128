import CommandShell.Fault
import CommandShell.Text.Utf8

/-!
# Reading lines

Input is a finite sequence of items: bytes, marks at which a read reports the end of the stream,
and faults. After the last item the stream has ended for good. `readLine` takes items up to and
including the newline that ends a line, and nothing beyond it; a line may also end at an end of
the stream, if it has a byte. Interruptions are skipped. The bytes of a line that a fault cuts
off are lost. A line may have any length: running out of memory for its bytes is left out.

The main statements are `taken_append_rest`, by which a read takes a first part of the items and
leaves the others as they are, and `length_rest_lt`, by which a read from a stream that still has
items takes one.
-/

namespace CommandShell
namespace Input

/-- What one attempt to read a byte meets. -/
inductive Item where
  | byte (b : UInt8)
  | endMark
  | fault (f : Fault)
deriving DecidableEq

/-- Something that arrives on a stream in one go: any number of bytes, the end of the stream, or
a fault. -/
inductive Arrival where
  | bytes (data : List UInt8)
  | endMark
  | fault (f : Fault)

/-- The items of which an arrival consists. -/
def Arrival.items : Arrival → List Item
  | .bytes data => data.map .byte
  | .endMark => [.endMark]
  | .fault f => [.fault f]

/-- The items of some arrivals: how bytes were grouped on arrival leaves no trace. -/
def ofArrivals (arrivals : List Arrival) : List Item := arrivals.flatMap Arrival.items

/-- The item is a byte of data. -/
def Item.isByte : Item → Bool
  | .byte _ => true
  | _ => false

/-- How many bytes of data some items hold. -/
def dataSize (items : List Item) : Nat := items.countP Item.isByte

/-- The answer of a read. -/
inductive Reading (α : Type) where
  | line (content : α)
  | endOfInput
  | fault (f : Fault)
deriving DecidableEq

namespace Reading

/-- Changes the content of a line. -/
def map {α β : Type} (f : α → β) : Reading α → Reading β
  | line content => line (f content)
  | endOfInput => endOfInput
  | fault e => fault e

end Reading

/-- The text by which a fault that stopped the line reader is reported. -/
def faultMessage (f : Fault) : String := "Io Error <" ++ f.text ++ ">"

/-- A read: its answer, the items it took, and those it left. -/
structure Read (α : Type) where
  reading : Reading α
  taken : List Item
  rest : List Item

/-- The byte that ends a line. -/
def newline : UInt8 := 0x0A

/-- The answer at an end of the stream, when the bytes `seen` (in reverse) came before it. -/
def atEnd : List UInt8 → Reading (List UInt8)
  | [] => .endOfInput
  | seen => .line seen.reverse

/-- Goes on with a line of which the bytes `seen` were read by taking the items `taken`, both in
reverse. -/
def cutFrom (seen : List UInt8) (taken : List Item) : List Item → Read (List UInt8)
  | [] => ⟨atEnd seen, taken.reverse, []⟩
  | .byte b :: rest =>
    if b = newline then ⟨.line seen.reverse, (.byte b :: taken).reverse, rest⟩
    else cutFrom (b :: seen) (.byte b :: taken) rest
  | .endMark :: rest => ⟨atEnd seen, (.endMark :: taken).reverse, rest⟩
  | .fault f :: rest =>
    if f.isInterruption then cutFrom seen (.fault f :: taken) rest
    else ⟨.fault f, (.fault f :: taken).reverse, rest⟩

/-- Takes one line from the input, as bytes without the newline. -/
def cutLine (items : List Item) : Read (List UInt8) := cutFrom [] [] items

/-- Takes one line from the input and decodes it, once it is complete. -/
def readLine (items : List Item) : Read String :=
  let cut := cutLine items
  ⟨cut.reading.map Utf8.decode, cut.taken, cut.rest⟩

theorem cutFrom_taken_append_rest (seen : List UInt8) (taken items : List Item) :
    (cutFrom seen taken items).taken ++ (cutFrom seen taken items).rest
      = taken.reverse ++ items := by
  fun_induction cutFrom seen taken items <;> simp_all

/-- A read takes a first part of the items and leaves the others as they are. -/
theorem taken_append_rest (items : List Item) :
    (readLine items).taken ++ (readLine items).rest = items :=
  cutFrom_taken_append_rest [] [] items

theorem cutFrom_length_rest_le (seen : List UInt8) (taken items : List Item) :
    (cutFrom seen taken items).rest.length ≤ items.length := by
  fun_induction cutFrom seen taken items <;> simp_all <;> omega

/-- A read from a stream that still has items takes at least one of them. -/
theorem length_rest_lt {items : List Item} (h : items ≠ []) :
    (readLine items).rest.length < items.length := by
  change (cutFrom [] [] items).rest.length < items.length
  match items with
  | .byte b :: rest =>
    rw [cutFrom]
    split
    · simp
    · exact Nat.lt_succ_of_le (cutFrom_length_rest_le _ _ _)
  | .endMark :: rest => simp [cutFrom]
  | .fault f :: rest =>
    rw [cutFrom]
    split
    · exact Nat.lt_succ_of_le (cutFrom_length_rest_le _ _ _)
    · simp

/-- Where a line was read, the stream had items. -/
theorem length_rest_lt_of_line {items : List Item} {text : String}
    (h : (readLine items).reading = .line text) :
    (readLine items).rest.length < items.length := by
  apply length_rest_lt
  rintro rfl
  simp [readLine, cutLine, cutFrom, atEnd, Reading.map] at h

/-- Reads until the end of the input is reported and no item is left. -/
def readLines (items : List Item) : List (Reading String) :=
  if _h : items = [] then [.endOfInput]
  else
    let read := readLine items
    if read.reading = .endOfInput ∧ read.rest = [] then [.endOfInput]
    else read.reading :: readLines read.rest
termination_by items.length
decreasing_by exact length_rest_lt _h

end Input
end CommandShell
