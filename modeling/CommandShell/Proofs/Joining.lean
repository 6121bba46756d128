import CommandShell.Proofs.Boundaries
import CommandShell.Proofs.Commands
import CommandShell.Proofs.Rebuilding

/-!
# Words of texts put together

The words of two texts one after the other are those of each, unless the first ends and the second
begins inside a word. Then the last word of the first and the first word of the second are one, and
all others stay as they are (`words_append`). Both cases come from one law: at a place where a word
may end nothing of either side matters to the other. A newline is such a place, so a text has the
words of its lines.
-/

namespace CommandShell

/-! ## Where words may end -/

/-- No word is open at the end of the text: it is empty, or it ends in a delimiter. -/
def EndsBetween (text : String) : Prop := ∀ c ∈ text.toList.getLast?, c ∈ delimiters

/-- No word is open at the beginning of the text: it is empty, or it begins with a delimiter. -/
def BeginsBetween (text : String) : Prop := ∀ c ∈ text.toList.head?, c ∈ delimiters

theorem words_empty : words "" = [] := rfl

/-- What stands before a place at which no word is open does not matter to the words after it. -/
theorem words_append_of_endsBetween {a : String} (h : EndsBetween a) (b : String) :
    words (a ++ b) = words a ++ words b := by
  rcases List.eq_nil_or_concat a.toList with hnil | ⟨before, c, hlast⟩
  · rw [String.toList_eq_nil_iff.1 hnil, String.empty_append, words_empty, List.nil_append]
  · rw [List.concat_eq_append] at hlast
    have hc : isDelimiter c = true := by
      apply isDelimiter_iff.2
      apply h c
      rw [hlast, List.getLast?_concat]
      rfl
    have ha : a = String.ofList (before ++ [c]) := by rw [← hlast, String.ofList_toList]
    have hab : a ++ b = String.ofList (before ++ c :: b.toList) := by
      rw [ha, ← String.ofList_toList (s := b), ← String.ofList_append, List.append_assoc,
        String.toList_ofList]
      rfl
    -- the delimiter ends the words of the first text, whether it has the second after it or not
    rw [hab, words_separated before b.toList hc, ha, words_separated before [] hc,
      String.ofList_toList]
    show _ = words (String.ofList before) ++ words "" ++ words b
    rw [words_empty, List.append_nil]

theorem words_append_of_beginsBetween (a : String) {b : String} (h : BeginsBetween b) :
    words (a ++ b) = words a ++ words b := by
  cases hb : b.toList with
  | nil => rw [String.toList_eq_nil_iff.1 hb, String.append_empty, words_empty, List.append_nil]
  | cons c after =>
    have hc : isDelimiter c = true := by
      apply isDelimiter_iff.2
      apply h c
      rw [hb]
      rfl
    have hb' : b = String.ofList (c :: after) := by rw [← hb, String.ofList_toList]
    have hab : a ++ b = String.ofList (a.toList ++ c :: after) := by
      rw [String.ofList_append, String.ofList_toList, hb']
    have halone : words b = words (String.ofList after) := by
      rw [hb']
      exact words_separated [] after hc
    rw [hab, words_separated a.toList after hc, halone, String.ofList_toList]

/-- A text of other characters than delimiters is one word. -/
theorem words_of_solid {token : String} (h : Solid token) : words token = [token] := by
  have hne : token.toList ≠ [] := fun hnil => h.1 (String.toList_eq_nil_iff.1 hnil)
  have hother : ∀ c ∈ token.toList, isDelimiter c = false := fun c hc =>
    isDelimiter_eq_false_iff.2 (h.2 c hc)
  have hcut := words_ofList token.toList
  rw [List.splitOnP_eq_singleton hother, List.filter_cons_of_pos (by simpa using hne),
    List.filter_nil, List.map_singleton, String.ofList_toList] at hcut
  exact hcut

/-! ## Words that a text leaves open -/

/-- Characters that begin with no delimiter begin with a stretch of such characters. -/
theorem exists_open_chars {chars : List Char} (h : ¬∀ c ∈ chars.head?, c ∈ delimiters) :
    ∃ token after, chars = token ++ after ∧ token ≠ [] ∧ (∀ c ∈ token, c ∉ delimiters) ∧
      ∀ c ∈ after.head?, c ∈ delimiters := by
  induction chars with
  | nil =>
    apply absurd _ h
    intro c hc
    cases hc
  | cons c rest ih =>
    have hc : c ∉ delimiters := by
      intro hmem
      apply h
      intro d hd
      cases hd
      exact hmem
    by_cases hrest : ∀ d ∈ rest.head?, d ∈ delimiters
    · exact ⟨[c], rest, rfl, List.cons_ne_nil c [], List.forall_mem_singleton.2 hc, hrest⟩
    · -- the stretch goes on after its first character
      obtain ⟨token, after, rfl, -, htoken, hafter⟩ := ih hrest
      exact ⟨c :: token, after, rfl, List.cons_ne_nil c token,
        List.forall_mem_cons.2 ⟨hc, htoken⟩, hafter⟩

/-- A text that does not begin between words begins with the word that is open there. -/
theorem exists_open_begin {b : String} (h : ¬BeginsBetween b) :
    ∃ token after, b = token ++ after ∧ Solid token ∧ BeginsBetween after := by
  obtain ⟨token, after, hcut, hne, htoken, hafter⟩ := exists_open_chars h
  refine ⟨String.ofList token, String.ofList after, ?_, ⟨?_, ?_⟩, ?_⟩
  · rw [← String.ofList_append, ← hcut, String.ofList_toList]
  · intro hempty
    apply hne
    rw [← String.toList_ofList (l := token), hempty, String.toList_empty]
  · rw [String.toList_ofList]
    exact htoken
  · show ∀ c ∈ (String.ofList after).toList.head?, c ∈ delimiters
    rw [String.toList_ofList]
    exact hafter

/-- A text that does not end between words ends with the word that is open there. -/
theorem exists_open_end {a : String} (h : ¬EndsBetween a) :
    ∃ before token, a = before ++ token ∧ EndsBetween before ∧ Solid token := by
  -- read from its end, the text begins with that word
  have hreverse : ¬∀ c ∈ a.toList.reverse.head?, c ∈ delimiters := by
    rw [List.head?_reverse]
    exact h
  obtain ⟨token, before, hcut, hne, htoken, hbefore⟩ := exists_open_chars hreverse
  have hcut' : a.toList = before.reverse ++ token.reverse := by
    rw [← List.reverse_append, ← hcut, List.reverse_reverse]
  refine ⟨String.ofList before.reverse, String.ofList token.reverse, ?_, ?_,
    Word.solid_ofList_reverse hne htoken⟩
  · rw [← String.ofList_append, ← hcut', String.ofList_toList]
  · show ∀ c ∈ (String.ofList before.reverse).toList.getLast?, c ∈ delimiters
    rw [String.toList_ofList, List.getLast?_reverse]
    exact hbefore

/-- Where a word goes on across the cut, its two parts become one word. -/
theorem words_append_of_open {a b : String} (ha : ¬EndsBetween a) (hb : ¬BeginsBetween b) :
    ∃ before last first after, words a = before ++ [last] ∧ words b = first :: after ∧
      words (a ++ b) = before ++ (last ++ first) :: after := by
  obtain ⟨before, last, rfl, hbefore, hlast⟩ := exists_open_end ha
  obtain ⟨first, after, rfl, hfirst, hafter⟩ := exists_open_begin hb
  have hjoined : Solid (last ++ first) := by
    refine ⟨?_, ?_⟩
    · intro hempty
      exact hlast.1 (String.append_eq_empty_iff.1 hempty).1
    · intro c hc
      rw [String.toList_append, List.mem_append] at hc
      exact hc.elim (hlast.2 c) (hfirst.2 c)
  refine ⟨words before, last, first, words after, ?_, ?_, ?_⟩
  · rw [words_append_of_endsBetween hbefore, words_of_solid hlast]
  · rw [words_append_of_beginsBetween first hafter, words_of_solid hfirst]
    rfl
  · calc words (before ++ last ++ (first ++ after))
        = words (before ++ ((last ++ first) ++ after)) := by
          rw [String.append_assoc, String.append_assoc]
      _ = words before ++ words ((last ++ first) ++ after) :=
          words_append_of_endsBetween hbefore _
      _ = words before ++ (words (last ++ first) ++ words after) := by
          rw [words_append_of_beginsBetween (last ++ first) hafter]
      _ = words before ++ (last ++ first) :: words after := by
          rw [words_of_solid hjoined]
          rfl

/-! ## Lines -/

/-- The words of a text are those of its stretches between newlines. -/
theorem flatMap_words_splitOn (chars : List Char) :
    (chars.splitOn '\n').flatMap (fun line => words (String.ofList line))
      = words (String.ofList chars) := by
  have hnewline : isDelimiter '\n' = true := rfl
  unfold List.splitOn
  induction chars using separated_induction (· == '\n') with
  | last line hline =>
    rw [List.splitOnP_eq_singleton hline]
    exact List.append_nil _
  | next line separator rest hline hseparator ih =>
    obtain rfl : separator = '\n' := eq_of_beq hseparator
    rw [List.splitOnP_append_cons_of_forall_mem hline '\n' hseparator, List.flatMap_cons, ih,
      words_separated line rest hnewline]

theorem filterMap_line?_cons (text : String) (readings : List (Input.Reading String)) :
    (.line text :: readings).filterMap Input.Reading.line?
      = text :: readings.filterMap Input.Reading.line? := rfl

/-- The words of a stream are those of the lines that are read from it. -/
theorem flatMap_words_readLines (bytes : List UInt8) :
    ((Input.readLines (bytes.map .byte)).filterMap Input.Reading.line?).flatMap words
      = words (Utf8.decode bytes) := by
  have hnewline : isDelimiterByte Input.newline = true := rfl
  have hend : (Input.readLines []).filterMap Input.Reading.line? = [] := by
    rw [Input.readLines, dif_pos rfl]
    rfl
  induction bytes using separated_induction (· == Input.newline) with
  | last line hline =>
    by_cases hne : line = []
    · rw [hne, List.map_nil, hend, Utf8.decode_nil]
      rfl
    · have hread := Input.readLine_last hline hne
      have hreading : (Input.readLine (line.map .byte)).reading = .line (Utf8.decode line) := by
        rw [hread]
      rw [Input.readLines_of_line hreading, filterMap_line?_cons, hread, hend]
      exact List.append_nil _
  | next line separator rest hline hseparator ih =>
    obtain rfl : separator = Input.newline := eq_of_beq hseparator
    have hitems : (line ++ Input.newline :: rest).map Input.Item.byte
        = line.map .byte ++ .byte Input.newline :: rest.map .byte := by
      rw [List.map_append, List.map_cons]
    have hread := Input.readLine_line hline (rest.map .byte)
    rw [← hitems] at hread
    have hreading : (Input.readLine ((line ++ Input.newline :: rest).map .byte)).reading
        = .line (Utf8.decode line) := by
      rw [hread]
    rw [Input.readLines_of_line hreading, filterMap_line?_cons, hread, List.flatMap_cons, ih,
      words_decode_separated line rest hnewline]

/-! ## Both cases of a cut -/

/-- The words of two texts put together are those of the first and those of the second, if the
first is empty or ends in a delimiter, or the second is empty or begins with one. Otherwise both
have words, and of these the last of the first and the first of the second become one. So a text
has the words of its lines, whether these are its stretches between newlines or what is read from
its bytes line by line. -/
theorem words_append (a b : String) :
    (EndsBetween a ∨ BeginsBetween b → words (a ++ b) = words a ++ words b) ∧
      (¬EndsBetween a ∧ ¬BeginsBetween b →
        ∃ before last first after, words a = before ++ [last] ∧ words b = first :: after ∧
          words (a ++ b) = before ++ (last ++ first) :: after) ∧
      ∀ text : String,
        (text.toList.splitOn '\n').flatMap (fun line => words (String.ofList line)) = words text ∧
          ((Input.readLines ((Utf8.encode text).map .byte)).filterMap
            Input.Reading.line?).flatMap words = words text := by
  refine ⟨?_, ?_, ?_⟩
  · rintro (ha | hb)
    · exact words_append_of_endsBetween ha b
    · exact words_append_of_beginsBetween a hb
  · rintro ⟨ha, hb⟩
    exact words_append_of_open ha hb
  · intro text
    refine ⟨?_, ?_⟩
    · rw [flatMap_words_splitOn, String.ofList_toList]
    · rw [flatMap_words_readLines, Utf8.decode_encode]

/-- A cut inside a word of several bytes a character, and one inside a row of delimiters. -/
example : words ("\tgr" ++ "üße \x07") = ["grüße"] ∧ words ("cat " ++ "\r\n a") = ["cat", "a"] := by
  decide +kernel

end CommandShell
