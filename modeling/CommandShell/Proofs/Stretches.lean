import CommandShell.Proofs.Rebuilding
import CommandShell.Proofs.Transport
import Mathlib.Data.List.Basic

/-!
# The stretches of an input

Without its interruptions an input is a row of stretches: the bytes of a line, and what ends them,
which is a newline, an end of the stream or a fault. `nextLine` and `nextEnd?` say so of the first
stretch, by what may stand in a line and not by how it is read. A read takes the first stretch and
answers for it (`cutFrom_stretch`), so reads one after the other take all of the input, each byte
once (`readLine_stretches`).
-/

namespace CommandShell
namespace Input

/-! ## Stretches -/

/-- The item may stand in a line: it is a byte of data and no newline. -/
def Item.isInside : Item → Bool
  | .byte b => b != newline
  | .endMark => false
  | .fault _ => false

/-- The byte of an item that is one. -/
def Item.byte? : Item → Option UInt8
  | .byte b => some b
  | .endMark => none
  | .fault _ => none

/-- The bytes of data among some items. -/
def data (items : List Item) : List UInt8 := items.filterMap Item.byte?

/-- The bytes of the line that comes next: all bytes of data before the first newline, end of the
stream or fault. -/
def nextLine (items : List Item) : List UInt8 := data ((undisturbed items).takeWhile Item.isInside)

/-- What comes after the bytes of the next line; `none` where the input has no more items. -/
def nextEnd? (items : List Item) : Option Item :=
  ((undisturbed items).dropWhile Item.isInside).head?

/-- What a read has to answer if it meets the bytes of a line and what comes after them. Bytes
before an end of the stream are a line, but their absence is none. -/
def answer (line : List UInt8) : Option Item → Reading (List UInt8)
  | some (.byte _) => .line line
  | some (.fault f) => .fault f
  | some .endMark => if line = [] then .endOfInput else .line line
  | none => if line = [] then .endOfInput else .line line

theorem data_append (first second : List Item) :
    data (first ++ second) = data first ++ data second := List.filterMap_append

theorem data_map_byte (bytes : List UInt8) : data (bytes.map .byte) = bytes := by
  have hbyte : Item.byte? ∘ Item.byte = some := rfl
  rw [data, List.filterMap_map, hbyte, List.filterMap_some]

theorem undisturbed_append (first second : List Item) :
    undisturbed (first ++ second) = undisturbed first ++ undisturbed second :=
  List.filter_append first second

/-- Interruptions hold no data. -/
theorem data_undisturbed (items : List Item) : data (undisturbed items) = data items := by
  induction items with
  | nil => rfl
  | cons item rest ih =>
    cases hitem : item.interrupts with
    | false =>
      rw [undisturbed_cons rest hitem, data, data, List.filterMap_cons, List.filterMap_cons, ← data,
        ← data, ih]
    | true =>
      rw [undisturbed_cons_of_interrupts rest hitem, ih]
      cases item <;> first | rfl | cases hitem

/-! ## The first stretch -/

theorem nextLine_byte {b : UInt8} (rest : List Item) (hb : b ≠ newline) :
    nextLine (.byte b :: rest) = b :: nextLine rest ∧
      nextEnd? (.byte b :: rest) = nextEnd? rest := by
  have hinside : Item.isInside (.byte b) = true := bne_iff_ne.2 hb
  rw [nextLine, nextEnd?, undisturbed_cons rest rfl, List.takeWhile_cons_of_pos hinside,
    List.dropWhile_cons_of_pos hinside]
  exact ⟨rfl, rfl⟩

theorem nextLine_end {item : Item} (rest : List Item) (hitem : item.interrupts = false)
    (hend : item.isInside = false) :
    nextLine (item :: rest) = [] ∧ nextEnd? (item :: rest) = some item := by
  have hneg : ¬ item.isInside = true := by rw [hend]; exact Bool.false_ne_true
  rw [nextLine, nextEnd?, undisturbed_cons rest hitem, List.takeWhile_cons_of_neg hneg,
    List.dropWhile_cons_of_neg hneg]
  exact ⟨rfl, rfl⟩

theorem nextLine_interruption {item : Item} (rest : List Item) (hitem : item.interrupts = true) :
    nextLine (item :: rest) = nextLine rest ∧ nextEnd? (item :: rest) = nextEnd? rest := by
  rw [nextLine, nextEnd?, undisturbed_cons_of_interrupts rest hitem]
  exact ⟨rfl, rfl⟩

theorem eq_newline_of_nextEnd? {items : List Item} {b : UInt8}
    (h : nextEnd? items = some (.byte b)) : b = newline := by
  have hinside := List.head?_dropWhile_not Item.isInside (undisturbed items)
  rw [nextEnd?] at h
  rw [h] at hinside
  simpa [Item.isInside] using hinside

theorem atEnd_eq (seen : List UInt8) :
    atEnd seen = if seen.reverse = [] then .endOfInput else .line seen.reverse := by
  cases seen with
  | nil => rfl
  | cons b seen => rw [if_neg (by simp), atEnd]; simp

/-- What a read has taken when it ends: the first stretch, and nothing after what ends it. -/
structure Stretch (seen : List UInt8) (taken items : List Item) (read : Read (List UInt8)) :
    Prop where
  reading : read.reading = answer (seen.reverse ++ nextLine items) (nextEnd? items)
  taken : undisturbed read.taken
    = undisturbed taken.reverse ++ ((nextLine items).map .byte ++ (nextEnd? items).toList)
  last : ∀ item ∈ nextEnd? items, read.taken.getLast? = some item
  rest : nextEnd? items = none → read.rest = []

/-- An item that ends a stretch is the last that is taken. -/
theorem stretch_end {seen : List UInt8} {item : Item} {reading : Reading (List UInt8)}
    (taken rest : List Item) (hitem : item.interrupts = false) (hend : item.isInside = false)
    (hreading : reading = answer seen.reverse (some item)) :
    Stretch seen taken (item :: rest) ⟨reading, (item :: taken).reverse, rest⟩ := by
  obtain ⟨hline, hnext⟩ := nextLine_end rest hitem hend
  have hkept : undisturbed [item] = [item] := undisturbed_cons [] hitem
  refine ⟨?_, ?_, ?_, ?_⟩
  · rw [hline, hnext, List.append_nil, hreading]
  · rw [hline, hnext, List.reverse_cons, undisturbed_append, hkept]
    rfl
  · intro last hlast
    rw [hnext] at hlast
    rw [List.reverse_cons, List.getLast?_concat, ← hlast]
  · intro hnone
    rw [hnext] at hnone
    cases hnone

theorem cutFrom_stretch (seen : List UInt8) (taken items : List Item) :
    Stretch seen taken items (cutFrom seen taken items) := by
  fun_induction cutFrom seen taken items with
  | case1 seen taken =>
    refine ⟨?_, ?_, by simp [nextEnd?, undisturbed], fun _ => rfl⟩
    · rw [atEnd_eq]
      simp [nextLine, nextEnd?, undisturbed, data, answer]
    · simp [nextLine, nextEnd?, undisturbed, data]
  | case2 seen taken rest => exact stretch_end taken rest rfl (by decide) rfl
  | case3 seen taken b rest hb ih =>
    obtain ⟨hline, hnext⟩ := nextLine_byte rest hb
    have hkept : undisturbed [.byte b] = [.byte b] := rfl
    refine ⟨?_, ?_, by rw [hnext]; exact ih.last, by rw [hnext]; exact ih.rest⟩
    · rw [ih.reading, hline, hnext, List.reverse_cons, List.append_assoc, List.singleton_append]
    · rw [ih.taken, hline, hnext, List.reverse_cons, undisturbed_append, hkept, List.append_assoc,
        List.singleton_append, List.map_cons, List.cons_append]
  | case4 seen taken rest => exact stretch_end taken rest rfl rfl (atEnd_eq seen)
  | case5 seen taken f rest hf ih =>
    have hitem : (Item.fault f).interrupts = true := hf
    obtain ⟨hline, hnext⟩ := nextLine_interruption rest hitem
    have hdropped : undisturbed [.fault f] = [] := undisturbed_cons_of_interrupts [] hitem
    refine ⟨?_, ?_, by rw [hnext]; exact ih.last, by rw [hnext]; exact ih.rest⟩
    · rw [ih.reading, hline, hnext]
    · rw [ih.taken, hline, hnext, List.reverse_cons, undisturbed_append, hdropped,
        List.append_nil]
  | case6 seen taken f rest hf =>
    exact stretch_end taken rest (Bool.eq_false_iff.2 hf) rfl rfl

/-! ## Reads one after the other -/

theorem leftAfter_add (items : List Item) (n m : Nat) :
    leftAfter items (n + m) = leftAfter (leftAfter items n) m := by
  induction n generalizing items with
  | zero => rw [Nat.zero_add, leftAfter]
  | succ n ih => rw [Nat.succ_add, leftAfter, ih, ← leftAfter]

/-- What some reads took, and what they left, are the items that there were. -/
theorem flatMap_taken_append_leftAfter (items : List Item) (n : Nat) :
    (firstReads items n).flatMap Read.taken ++ leftAfter items n = items := by
  induction n generalizing items with
  | zero => rfl
  | succ n ih =>
    calc (firstReads items (n + 1)).flatMap Read.taken ++ leftAfter items (n + 1)
        = (readLine items).taken ++ ((firstReads (readLine items).rest n).flatMap Read.taken
            ++ leftAfter (readLine items).rest n) := by
          rw [firstReads_succ, List.flatMap_cons, List.append_assoc, leftAfter]
      _ = (readLine items).taken ++ (readLine items).rest := by rw [ih]
      _ = items := taken_append_rest items

/-- As many reads as there are items leave nothing. -/
theorem leftAfter_eq_nil {items : List Item} {n : Nat} (h : items.length ≤ n) :
    leftAfter items n = [] := by
  induction n generalizing items with
  | zero => exact List.eq_nil_of_length_eq_zero (Nat.le_zero.1 h)
  | succ n ih =>
    by_cases hne : items = []
    · rw [hne, leftAfter_nil]
    · have hlt := length_rest_lt hne
      exact ih (by omega)

/-- The data that a read takes are the bytes of a line, and a newline if it ends with one. -/
theorem data_readLine_taken (items : List Item) :
    data (readLine items).taken = nextLine items ++ data (nextEnd? items).toList := by
  have htaken : undisturbed (readLine items).taken
      = (nextLine items).map .byte ++ (nextEnd? items).toList := (cutFrom_stretch [] [] items).taken
  rw [← data_undisturbed, htaken, data_append, data_map_byte]

/-- A read takes the bytes of the next line with what ends them, answers for these, and leaves all
that comes after; later reads know of nothing else. So reads one after the other take every item
once and in order, and every byte of data is one of a line that is returned or lost to a fault, or
the newline after it. -/
theorem readLine_stretches (items : List Item) :
    (∀ n,
      let left := leftAfter items n
      let read := nthRead items n
      let line := nextLine left
      let end? := nextEnd? left
      read.reading = (answer line end?).map Utf8.decode ∧
        read.taken ++ read.rest = left ∧
        undisturbed read.taken = line.map .byte ++ end?.toList ∧
        (∀ item ∈ end?, read.taken.getLast? = some item) ∧
        (∀ b, end? = some (.byte b) → b = newline) ∧
        (end? = none → read.rest = []) ∧
        ∀ m, nthRead items (n + 1 + m) = nthRead read.rest m) ∧
      (∀ n, (firstReads items n).flatMap Read.taken ++ leftAfter items n = items) ∧
      ∀ n, items.length ≤ n → leftAfter items n = [] ∧
        data items = (List.range n).flatMap fun k =>
          nextLine (leftAfter items k) ++ data (nextEnd? (leftAfter items k)).toList := by
  refine ⟨fun n => ?_, flatMap_taken_append_leftAfter items, fun n hn => ?_⟩
  · intro left read line end?
    have hstretch := cutFrom_stretch [] [] left
    have hlater : ∀ m, nthRead items (n + 1 + m) = nthRead read.rest m := by
      intro m
      rw [nthRead, leftAfter_add, leftAfter_add]
      rfl
    exact ⟨congrArg (Reading.map Utf8.decode) hstretch.reading, taken_append_rest left,
      hstretch.taken, hstretch.last, fun b => eq_newline_of_nextEnd?, hstretch.rest, hlater⟩
  · have hleft := leftAfter_eq_nil hn
    have htaken := flatMap_taken_append_leftAfter items n
    rw [hleft, List.append_nil, firstReads, List.flatMap_map] at htaken
    refine ⟨hleft, ?_⟩
    calc data items
        = data ((List.range n).flatMap fun k => (nthRead items k).taken) := by rw [htaken]
      _ = (List.range n).flatMap fun k => data (nthRead items k).taken := List.filterMap_flatMap
      _ = (List.range n).flatMap fun k =>
            nextLine (leftAfter items k) ++ data (nextEnd? (leftAfter items k)).toList :=
          List.flatMap_congr fun k _ => data_readLine_taken (leftAfter items k)

/-- Interruptions, a line that an end of the stream ends, an end of the stream on its own, and bytes
that a fault cuts off. -/
example : readLines [.byte 0x61, .fault (.numbered 4), .byte 0x62, .endMark, .endMark, .byte 0x63,
      .fault (.numbered 5), .byte newline]
    = [.line "ab", .endOfInput, .fault (.numbered 5), .line "", .endOfInput] := by decide +kernel

end Input
end CommandShell
