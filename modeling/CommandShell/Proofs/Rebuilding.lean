import CommandShell.Proofs.Decoding
import CommandShell.Input

/-!
# A stream put together again from its lines

A stream of bytes without faults is read by lines, each decoded on its own. A read steps over the
bytes of a line at once (`cutFrom_append_stretch`), so it gives the line up to the first newline, or
all that is left (`readLine_line`, `readLine_last`). A newline is a byte before which a decoder
stops, so the decoded lines are the parts of the decoded stream (`decode_newline`), and written out
one after the other they are its text (`rebuilds`).
-/

namespace CommandShell
namespace Input

/-! ## Reads one after the other -/

/-- The items that are left after some reads. -/
def leftAfter (items : List Item) : Nat → List Item
  | 0 => items
  | n + 1 => leftAfter (readLine items).rest n

/-- The reads from a stream, counted from zero. -/
def nthRead (items : List Item) (n : Nat) : Read String := readLine (leftAfter items n)

/-- What is written of a read to copy the stream: the text of its line, and a newline if the line
had one. -/
def Read.copy (read : Read String) : String :=
  match read.reading with
  | .line text => if read.taken.getLast? = some (.byte newline) then text ++ "\n" else text
  | .endOfInput => ""
  | .fault _ => ""

/-- The first reads of a stream. -/
def firstReads (items : List Item) (count : Nat) : List (Read String) :=
  (List.range count).map (nthRead items)

/-- The number of newlines, and one more if something comes after the last of them. -/
def lineCount (bytes : List UInt8) : Nat :=
  bytes.count newline + if bytes ≠ [] ∧ bytes.getLast? ≠ some newline then 1 else 0

theorem firstReads_succ (items : List Item) (count : Nat) :
    firstReads items (count + 1)
      = readLine items :: firstReads (readLine items).rest count := by
  rw [firstReads, List.range_succ_eq_map, List.map_cons, List.map_map]
  rfl

/-! ## Lines of bytes -/

/-- The bytes of a line that come before its newline are taken up. -/
theorem cutFrom_append_stretch {line : List UInt8} (h : ∀ b ∈ line, (b == newline) = false)
    (seen : List UInt8) (taken rest : List Item) :
    cutFrom seen taken (line.map .byte ++ rest)
      = cutFrom (line.reverse ++ seen) ((line.map Item.byte).reverse ++ taken) rest := by
  induction line generalizing seen taken with
  | nil => rfl
  | cons b line ih =>
    obtain ⟨hb, hline⟩ := List.forall_mem_cons.1 h
    have hne : b ≠ newline := fun heq => by simp [heq] at hb
    rw [List.map_cons, List.cons_append, cutFrom, if_neg hne, ih hline]
    simp only [List.reverse_cons, List.append_assoc, List.singleton_append]

/-- A line that has a newline. -/
theorem readLine_line {line : List UInt8} (h : ∀ b ∈ line, (b == newline) = false)
    (rest : List Item) :
    readLine (line.map .byte ++ .byte newline :: rest)
      = ⟨.line (Utf8.decode line), line.map .byte ++ [.byte newline], rest⟩ := by
  rw [readLine, cutLine, cutFrom_append_stretch h, cutFrom, if_pos rfl]
  simp [Reading.map]

/-- A last line, which has no newline. -/
theorem readLine_last {line : List UInt8} (h : ∀ b ∈ line, (b == newline) = false)
    (hne : line ≠ []) :
    readLine (line.map .byte) = ⟨.line (Utf8.decode line), line.map .byte, []⟩ := by
  have hcut := cutFrom_append_stretch h [] [] []
  rw [List.append_nil, List.append_nil, List.append_nil, cutFrom, List.reverse_reverse] at hcut
  have hend : atEnd line.reverse = .line line := by
    cases hrev : line.reverse with
    | nil => exact absurd (List.reverse_eq_nil_iff.1 hrev) hne
    | cons b seen =>
      show Reading.line (b :: seen).reverse = .line line
      rw [← hrev, List.reverse_reverse]
  rw [readLine, cutLine, hcut, hend]
  rfl

theorem leftAfter_nil (n : Nat) : leftAfter [] n = [] := by
  induction n with
  | zero => rfl
  | succ n ih => exact ih

/-- After a line the next one is read. -/
theorem readLines_of_line {items : List Item} {text : String}
    (h : (readLine items).reading = .line text) :
    readLines items = .line text :: readLines (readLine items).rest := by
  have hne : items ≠ [] := by
    rintro rfl
    cases h
  rw [readLines, dif_neg hne, if_neg (by rw [h]; simp), h]

/-- A newline separates what is decoded before it from what is decoded after it. -/
theorem decode_newline (line rest : List UInt8) :
    Utf8.decode (line ++ newline :: rest) = Utf8.decode line ++ "\n" ++ Utf8.decode rest := by
  have hascii : newline < 0x80 := by decide
  have hsplit : ∀ chars : List Char, '\n' :: chars = ['\n'] ++ chars := fun _ => rfl
  have hchar : Char.ofNat newline.toNat = '\n' := rfl
  rw [Utf8.decode, Utf8.decodeChars_separated line rest hascii, hchar, hsplit,
    String.ofList_append, String.ofList_append, ← String.append_assoc]
  rfl

theorem count_newline_eq_zero {line : List UInt8} (h : ∀ b ∈ line, (b == newline) = false) :
    line.count newline = 0 :=
  List.count_eq_zero.2 fun hmem => by simpa using h newline hmem

theorem lineCount_line {line : List UInt8} (h : ∀ b ∈ line, (b == newline) = false)
    (rest : List UInt8) : lineCount (line ++ newline :: rest) = lineCount rest + 1 := by
  have hcount : (line ++ newline :: rest).count newline = rest.count newline + 1 := by
    rw [List.count_append, count_newline_eq_zero h, List.count_cons_self, Nat.zero_add]
  cases rest with
  | nil => simp [lineCount, hcount]
  | cons b rest =>
    have hlast : (line ++ newline :: b :: rest).getLast? = (b :: rest).getLast? := by
      rw [List.getLast?_append, List.getLast?_cons_cons]
      simp [List.getLast?_cons]
    simp only [lineCount, hcount, hlast, ne_eq, List.append_eq_nil_iff, reduceCtorEq, and_false,
      not_false_eq_true, true_and]
    omega

/-- A line does not end in a newline of its own. -/
theorem getLast?_ne_newline {line : List UInt8} (h : ∀ b ∈ line, (b == newline) = false) :
    line.getLast? ≠ some newline := fun hlast => by
  simpa using h newline (List.mem_of_getLast? hlast)

theorem lineCount_last {line : List UInt8} (h : ∀ b ∈ line, (b == newline) = false)
    (hne : line ≠ []) : lineCount line = 1 := by
  rw [lineCount, count_newline_eq_zero h, if_pos ⟨hne, getLast?_ne_newline h⟩]

/-! ## Lines that were written -/

/-- A text that is given by its characters is on one line if none of them is a newline. -/
theorem newline_not_mem_ofList {chars : List Char} (h : '\n' ∉ chars) :
    '\n' ∉ (String.ofList chars).toList := by
  rw [String.toList_ofList]
  exact h

theorem newline_not_mem_encode {text : String} (h : '\n' ∉ text.toList) :
    newline ∉ Utf8.encode text := fun hmem =>
  h (Utf8.ofNat_mem_of_mem_encode hmem (by decide))

/-- The bytes of some lines, each with a newline after it. -/
def written (lines : List String) : List UInt8 :=
  lines.flatMap fun line => Utf8.encode (line ++ "\n")

/-- Lines that hold no newline are found again between the newlines of what was written. -/
theorem splitOn_written {lines : List String} (h : ∀ line ∈ lines, '\n' ∉ line.toList) :
    (written lines).splitOn newline = lines.map Utf8.encode ++ [[]] := by
  induction lines with
  | nil => rfl
  | cons line lines ih =>
    obtain ⟨hline, hlines⟩ := List.forall_mem_cons.1 h
    have hend : Utf8.encode (line ++ "\n") = Utf8.encode line ++ [newline] := by
      rw [Utf8.encode_append]
      rfl
    rw [written, List.flatMap_cons, hend, List.append_assoc, List.singleton_append,
      List.splitOn_append_cons_self_of_not_mem (newline_not_mem_encode hline)]
    exact congrArg (List.cons _) (ih hlines)

/-! ## The whole stream -/

/-- A stream of bytes is read in as many lines as it has, and no line loses or adds anything. -/
structure Rebuilds (bytes : List UInt8) : Prop where
  lines : ∀ n, n < lineCount bytes → ∃ text, (nthRead (bytes.map .byte) n).reading = .line text
  ends : ∀ n, lineCount bytes ≤ n → (nthRead (bytes.map .byte) n).reading = .endOfInput
  readings : readLines (bytes.map .byte)
    = (firstReads (bytes.map .byte) (lineCount bytes + 1)).map Read.reading
  text : String.join ((firstReads (bytes.map .byte) (lineCount bytes)).map Read.copy)
    = Utf8.decode bytes

theorem rebuilds_nil : Rebuilds [] where
  lines n h := absurd h (Nat.not_lt_zero n)
  ends n _ := by
    rw [List.map_nil, nthRead, leftAfter_nil]
    rfl
  readings := by
    rw [List.map_nil, readLines, dif_pos rfl]
    rfl
  text := Utf8.decode_nil.symm

/-- A line before a stream that is rebuilt. -/
theorem Rebuilds.cons {bytes rest : List UInt8} {text : String} {taken : List Item}
    (h : Rebuilds rest)
    (hread : readLine (bytes.map .byte) = ⟨.line text, taken, rest.map .byte⟩)
    (hcount : lineCount bytes = lineCount rest + 1)
    (hdecode : (readLine (bytes.map .byte)).copy ++ Utf8.decode rest = Utf8.decode bytes) :
    Rebuilds bytes := by
  have hreading : (readLine (bytes.map .byte)).reading = .line text := by rw [hread]
  have hrest : (readLine (bytes.map .byte)).rest = rest.map .byte := by rw [hread]
  -- the reads after the first are those of the rest
  have hnext : ∀ n, nthRead (bytes.map .byte) (n + 1) = nthRead (rest.map .byte) n := by
    intro n
    rw [nthRead, leftAfter, hrest]
    rfl
  refine ⟨?_, ?_, ?_, ?_⟩
  · intro n hn
    cases n with
    | zero => exact ⟨text, hreading⟩
    | succ n =>
      rw [hnext]
      exact h.lines n (by omega)
  · intro n hn
    cases n with
    | zero => omega
    | succ n =>
      rw [hnext]
      exact h.ends n (by omega)
  · rw [readLines_of_line hreading, firstReads_succ, List.map_cons, hreading, hrest, hcount,
      h.readings]
  · rw [hcount, firstReads_succ, List.map_cons, String.join_cons, hrest, h.text, hdecode]

theorem rebuilds (bytes : List UInt8) : Rebuilds bytes := by
  induction bytes using separated_induction (· == newline) with
  | last line hline =>
    by_cases hne : line = []
    · -- nothing comes after the last newline
      rw [hne]
      exact rebuilds_nil
    · -- what comes after it is a line of its own, which is copied without a newline
      have hread := readLine_last hline hne
      refine rebuilds_nil.cons hread (lineCount_last hline hne) ?_
      have hlast : (line.map Item.byte).getLast? ≠ some (.byte newline) := by
        rw [List.getLast?_map]
        intro heq
        obtain ⟨b, hb, hbyte⟩ := Option.map_eq_some_iff.1 heq
        rw [Item.byte.inj hbyte] at hb
        exact getLast?_ne_newline hline hb
      rw [hread, Read.copy, Utf8.decode_nil, String.append_empty]
      exact if_neg hlast
  | next line separator rest hline hseparator ih =>
    obtain rfl : separator = newline := by simpa using hseparator
    have hread := readLine_line hline (rest.map .byte)
    have hitems : (line ++ newline :: rest).map Item.byte
        = line.map .byte ++ .byte newline :: rest.map .byte := by simp
    rw [← hitems] at hread
    refine ih.cons hread (lineCount_line hline rest) ?_
    have hlast : (line.map Item.byte ++ [Item.byte newline]).getLast?
        = some (Item.byte newline) := List.getLast?_concat
    have hcopy : (readLine ((line ++ newline :: rest).map .byte)).copy
        = Utf8.decode line ++ "\n" := by
      rw [hread]
      exact if_pos hlast
    rw [hcopy, decode_newline]

/-- Bytes that arrive in groups are read as if they came in one. -/
theorem ofArrivals_bytes (groups : List (List UInt8)) :
    ofArrivals (groups.map .bytes) = groups.flatten.map .byte := by
  induction groups with
  | nil => rfl
  | cons bytes rest ih =>
    rw [List.map_cons, ofArrivals, List.flatMap_cons, ← ofArrivals, ih, Arrival.items,
      List.flatten_cons, List.map_append]

/-- A stream of bytes without faults, in groups of any size, is read in one line for each newline,
and in one more if it does not end with a newline and is not empty; from then on every read reports
the end of the input. The texts of these lines, each with the newline that it had, are the text of
the whole stream, with one replacement character for each maximal invalid part. So the bytes of a
text are read as this text. -/
theorem lines_rebuild_stream (groups : List (List UInt8)) :
    let bytes := groups.flatten
    let items := ofArrivals (groups.map .bytes)
    let count := bytes.count newline + if bytes ≠ [] ∧ bytes.getLast? ≠ some newline then 1 else 0
    let rebuilt := String.join ((firstReads items count).map Read.copy)
    (∀ n, n < count → ∃ text, (nthRead items n).reading = .line text) ∧
      (∀ n, count ≤ n → (nthRead items n).reading = .endOfInput) ∧
      readLines items = (firstReads items (count + 1)).map Read.reading ∧
      rebuilt = Utf8.decode bytes ∧
      ∀ text, bytes = Utf8.encode text → rebuilt = text := by
  intro bytes items count rebuilt
  have hitems : items = bytes.map .byte := ofArrivals_bytes groups
  obtain ⟨hlines, hends, hreadings, htext⟩ := rebuilds bytes
  have hrebuilt : rebuilt = Utf8.decode bytes := by
    rw [← htext, ← hitems]
    rfl
  refine ⟨?_, ?_, ?_, hrebuilt, ?_⟩
  · rw [hitems]
    exact hlines
  · rw [hitems]
    exact hends
  · rw [hitems]
    exact hreadings
  · intro text hvalid
    rw [hrebuilt, hvalid, Utf8.decode_encode]

/-- A character that arrives in two groups, an empty line, and a line without a newline. -/
def splitText : List (List UInt8) := [[0x67, 0xC3], [0xBC, 0x0A, 0x0A], [0x78]]

theorem lines_rebuild_split_text :
    splitText.flatten = Utf8.encode "gü\n\nx" ∧
      readLines (ofArrivals (splitText.map .bytes))
        = [.line "gü", .line "", .line "x", .endOfInput] ∧
      String.join ((firstReads (ofArrivals (splitText.map .bytes)) 3).map Read.copy)
        = "gü\n\nx" := by
  have hvalid : splitText.flatten = Utf8.encode "gü\n\nx" := by decide
  obtain ⟨-, -, hreadings, -, htext⟩ := lines_rebuild_stream splitText
  refine ⟨hvalid, ?_, htext _ hvalid⟩
  rw [hreadings]
  decide +kernel

end Input
end CommandShell
