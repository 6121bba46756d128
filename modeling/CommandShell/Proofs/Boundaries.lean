import CommandShell.Proofs.Decoding
import CommandShell.Proofs.Spacing

/-!
# Word boundaries and bytes

The words of a line are the stretches between its delimiters (`map_text_scan_eq`), and so they can
be cut from the bytes of the line before anything is decoded. A delimiter is an ASCII character,
and these come from their own bytes and from nothing else, so a decoded line has its delimiters
where the bytes have theirs (`splitOnP_decodeChars`), however broken the bytes between them are.
-/

namespace CommandShell

/-! ## Splitting and mapping -/

/-- What keeps separators apart from what stands between them may be done to the whole, or to each
of the stretches. -/
theorem splitOnP_eq_map {α β : Type} {p : α → Bool} {q : β → Bool} {f : List α → List β}
    (within : ∀ xs, (∀ x ∈ xs, p x = false) → ∀ y ∈ f xs, q y = false)
    (across : ∀ xs separator rest, p separator = true →
      ∃ separator', q separator' = true ∧
        f (xs ++ separator :: rest) = f xs ++ separator' :: f rest)
    (items : List α) : (f items).splitOnP q = (items.splitOnP p).map f := by
  induction items using separated_induction p with
  | last xs hxs =>
    rw [List.splitOnP_eq_singleton hxs, List.splitOnP_eq_singleton (within xs hxs)]
    rfl
  | next xs separator rest hxs hseparator ih =>
    obtain ⟨separator', hseparator', heq⟩ := across xs separator rest hseparator
    rw [List.splitOnP_append_cons_of_forall_mem hxs separator hseparator, heq,
      List.splitOnP_append_cons_of_forall_mem (within xs hxs) separator' hseparator', ih]
    rfl

/-! ## Stretches of characters -/

namespace Word

theorem solid {chars : List Char} (h : ∀ c ∈ chars, isDelimiter c = false) :
    ∀ c ∈ chars, c ∉ delimiters := fun c hc => isDelimiter_eq_false_iff.1 (h c hc)

/-- The word that other characters than delimiters make, if there are any. -/
def ofToken (offset : Nat) (token : List Char) : List Word :=
  if token = [] then [] else [⟨offset, token⟩]

theorem map_text_ofToken (offset : Nat) (token : List Char) :
    (ofToken offset token).map text = ([token].filter (· ≠ [])).map String.ofList := by
  by_cases hne : token = []
  · rw [hne]
    rfl
  · rw [ofToken, if_neg hne, List.filter_cons_of_pos (by simpa)]
    rfl

theorem scan_token {token : List Char} (h : ∀ c ∈ token, c ∉ delimiters) (offset : Nat) :
    scan offset .between token = ofToken offset token := by
  by_cases hne : token = []
  · rw [hne]
    rfl
  · have hscan := scan_between_token hne h offset []
    rw [List.append_nil, scan, List.reverse_reverse] at hscan
    rw [hscan, ofToken, if_neg hne]

/-- A delimiter ends a word, if one is open. -/
theorem scan_separated {token : List Char} (h : ∀ c ∈ token, c ∉ delimiters) {separator : Char}
    (hseparator : isDelimiter separator = true) (offset : Nat) (rest : List Char) :
    scan offset .between (token ++ separator :: rest)
      = ofToken offset token
        ++ scan (offset + byteLength token + separator.utf8Size) .between rest := by
  by_cases hne : token = []
  · -- a delimiter after another, or at the beginning, ends no word
    rw [hne, List.nil_append, scan, if_pos hseparator]
    rfl
  · rw [scan_between_token hne h, scan, if_pos hseparator, List.reverse_reverse, ofToken,
      if_neg hne, List.singleton_append]

/-- The words that a scan finds are the stretches between delimiters, without the empty ones. -/
theorem map_text_scan_eq (chars : List Char) (offset : Nat) :
    (scan offset .between chars).map text
      = ((chars.splitOnP isDelimiter).filter (· ≠ [])).map String.ofList := by
  induction chars using separated_induction isDelimiter generalizing offset with
  | last token htoken =>
    rw [List.splitOnP_eq_singleton htoken, scan_token (solid htoken), map_text_ofToken]
  | next token separator rest htoken hseparator ih =>
    rw [List.splitOnP_append_cons_of_forall_mem htoken separator hseparator,
      scan_separated (solid htoken) hseparator, List.map_append, map_text_ofToken, ih,
      ← List.map_append, ← List.filter_append, List.singleton_append]

end Word

theorem words_ofList (chars : List Char) :
    words (String.ofList chars)
      = ((chars.splitOnP isDelimiter).filter (· ≠ [])).map String.ofList := by
  rw [words, Word.ofLine, String.toList_ofList, Word.map_text_scan_eq]

/-- What stands before a delimiter and what stands after it are cut as if they stood alone. -/
theorem words_separated (before after : List Char) {c : Char} (hc : isDelimiter c = true) :
    words (String.ofList (before ++ c :: after))
      = words (String.ofList before) ++ words (String.ofList after) := by
  simp only [words_ofList, List.splitOnP_append_cons before after hc, List.filter_append,
    List.map_append]

/-! ## Stretches of bytes -/

/-- The bytes of the delimiters. -/
def isDelimiterByte (b : UInt8) : Bool :=
  b == 0x20 || b == 0x09 || b == 0x0A || b == 0x0D || b == 0x07

/-- The longest stretches of bytes that are no delimiters. -/
def rawWords (bytes : List UInt8) : List (List UInt8) :=
  (bytes.splitOnP isDelimiterByte).filter (· ≠ [])

theorem isDelimiter_ofNat {b : UInt8} (h : isDelimiterByte b = true) :
    b < 0x80 ∧ isDelimiter (Char.ofNat b.toNat) = true := by
  simp only [isDelimiterByte, Bool.or_eq_true, beq_iff_eq, or_assoc] at h
  rcases h with rfl | rfl | rfl | rfl | rfl <;> decide

theorem isDelimiterByte_of_toNat {c : Char} {b : UInt8} (hc : isDelimiter c = true)
    (hb : b.toNat = c.val.toNat) : isDelimiterByte b = true := by
  have heq : b = UInt8.ofNat c.val.toNat := (Utf8.ofNat_eq hb.symm).symm
  rw [heq]
  simp only [isDelimiter, Bool.or_eq_true, beq_iff_eq, or_assoc] at hc
  rcases hc with rfl | rfl | rfl | rfl | rfl <;> decide

/-- A delimiter is an ASCII character. -/
theorem toNat_lt_of_isDelimiter {c : Char} (h : isDelimiter c = true) : c.val.toNat < 0x80 := by
  simp only [isDelimiter, Bool.or_eq_true, beq_iff_eq, or_assoc] at h
  rcases h with rfl | rfl | rfl | rfl | rfl <;> decide

/-- The words on both sides of a delimiter byte come from the bytes on each side alone. -/
theorem words_decode_separated (before after : List UInt8) {b : UInt8}
    (hb : isDelimiterByte b = true) :
    words (Utf8.decode (before ++ b :: after))
      = words (Utf8.decode before) ++ words (Utf8.decode after) := by
  obtain ⟨hascii, hdelimiter⟩ := isDelimiter_ofNat hb
  simp only [Utf8.decode, Utf8.decodeChars_separated before after hascii,
    words_separated _ _ hdelimiter]

/-- A decoded line has its delimiters where its bytes have theirs. -/
theorem splitOnP_decodeChars (bytes : List UInt8) :
    (Utf8.decodeChars bytes).splitOnP isDelimiter
      = (bytes.splitOnP isDelimiterByte).map Utf8.decodeChars := by
  refine splitOnP_eq_map (fun xs hxs c hc => ?_) (fun xs b rest hb => ?_) bytes
  · cases hdelimiter : isDelimiter c with
    | false => rfl
    | true =>
      -- what is invalid becomes no delimiter, and what is valid keeps its bytes
      obtain ⟨b, hb, heq⟩ :=
        Utf8.exists_mem_of_mem_decodeChars hc (toNat_lt_of_isDelimiter hdelimiter)
      have hbyte := isDelimiterByte_of_toNat hdelimiter heq
      rw [hxs b hb] at hbyte
      cases hbyte
  · obtain ⟨hascii, hdelimiter⟩ := isDelimiter_ofNat hb
    exact ⟨_, hdelimiter, Utf8.decodeChars_separated xs rest hascii⟩

/-- Which bytes are delimiters decides where a line is cut. -/
theorem splitOnP_map_isDelimiterByte (bytes : List UInt8) :
    (bytes.map isDelimiterByte).splitOnP id
      = (bytes.splitOnP isDelimiterByte).map (List.map isDelimiterByte) := by
  refine splitOnP_eq_map (fun xs hxs mark hmark => ?_) (fun xs b rest hb => ?_) bytes
  · obtain ⟨b, hb, rfl⟩ := List.mem_map.1 hmark
    exact hxs b hb
  · exact ⟨true, rfl, by rw [List.map_append, List.map_cons, hb]⟩

/-- The words of a decoded line are its raw words, each decoded on its own. Their number is that of
the stretches between delimiter bytes, whatever the other bytes are. -/
theorem words_decode (bytes : List UInt8) :
    words (Utf8.decode bytes) = (rawWords bytes).map Utf8.decode ∧
      (words (Utf8.decode bytes)).length
        = ((bytes.map isDelimiterByte).splitOnP id).countP (· ≠ []) := by
  have hcut : words (Utf8.decode bytes) = (rawWords bytes).map Utf8.decode := by
    have hempty : (fun chars : List Char => decide (chars ≠ [])) ∘ Utf8.decodeChars
        = fun part => decide (part ≠ []) := by
      funext part
      simp [Utf8.decodeChars_eq_nil_iff]
    rw [words, Word.ofLine, Utf8.decode, String.toList_ofList, Word.map_text_scan_eq,
      splitOnP_decodeChars, List.filter_map, hempty, List.map_map]
    rfl
  refine ⟨hcut, ?_⟩
  have hempty : (fun marks : List Bool => decide (marks ≠ [])) ∘ List.map isDelimiterByte
      = fun part => decide (part ≠ []) := by
    funext part
    simp
  rw [hcut, List.length_map, rawWords, splitOnP_map_isDelimiterByte, List.countP_map, hempty,
    List.countP_eq_length_filter]

/-- Truncated and stray bytes next to delimiters. -/
example : words (Utf8.decode [0x61, 0xE2, 0x82, 0x20, 0xFF, 0x07, 0x20, 0xC3])
    = ["a\uFFFD", "\uFFFD", "\uFFFD"] := by decide +kernel

end CommandShell
