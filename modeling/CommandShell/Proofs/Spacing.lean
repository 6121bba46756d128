import CommandShell.Words
import Mathlib.Tactic.Common

/-!
# Words and the delimiters between them

A line is a row of words with delimiters before, between and after them. The scan steps over a
stretch of delimiters or of other characters at once (`scan_between_append`,
`scan_inside_append`), so it finds the words from which a line is put together, and it puts every
line together from the words that it finds: `words_eq_iff` says that a line is such a row in one
way only.
-/

namespace CommandShell

/-! ## Rows of words -/

/-- The characters that separate words. -/
def delimiters : List Char := [' ', '\t', '\n', '\r', '\x07']

theorem isDelimiter_iff {c : Char} : isDelimiter c = true ↔ c ∈ delimiters := by
  simp [isDelimiter, delimiters, or_assoc]

theorem isDelimiter_eq_false_iff {c : Char} : isDelimiter c = false ↔ c ∉ delimiters := by
  rw [← isDelimiter_iff, Bool.not_eq_true]

/-- Nothing but delimiters. -/
def Blank (gap : String) : Prop := ∀ c ∈ gap.toList, c ∈ delimiters

theorem Blank.singleton_append {c : Char} {gap : String} (h : Blank gap)
    (hc : isDelimiter c = true) : Blank (String.singleton c ++ gap) := by
  intro d hd
  rw [String.toList_append, String.toList_singleton, List.singleton_append] at hd
  rcases List.mem_cons.1 hd with rfl | hd
  · exact isDelimiter_iff.1 hc
  · exact h d hd

/-- At least one character, and none of them a delimiter. -/
def Solid (token : String) : Prop := token ≠ "" ∧ ∀ c ∈ token.toList, c ∉ delimiters

/-- Tokens with a gap after each of them. Only the last gap may be empty. -/
structure Spacing (tokens gaps : List String) : Prop where
  paired : gaps.length = tokens.length
  solid : ∀ token ∈ tokens, Solid token
  blank : ∀ gap ∈ gaps, Blank gap
  apart : ∀ gap ∈ gaps.dropLast, gap ≠ ""

/-- The text of tokens with a gap after each of them. -/
def row (tokens gaps : List String) : String := String.join (List.zipWith (· ++ ·) tokens gaps)

theorem row_cons (token gap : String) (tokens gaps : List String) :
    row (token :: tokens) (gap :: gaps) = token ++ (gap ++ row tokens gaps) := by
  rw [row, List.zipWith_cons_cons, String.join_cons, String.append_assoc]
  rfl

namespace Spacing

variable {token gap : String} {tokens gaps : List String}

theorem tail (h : Spacing (token :: tokens) (gap :: gaps)) : Spacing tokens gaps where
  paired := Nat.succ.inj h.paired
  solid t ht := h.solid t (List.mem_cons_of_mem token ht)
  blank g hg := h.blank g (List.mem_cons_of_mem gap hg)
  apart g hg := by
    refine h.apart g ?_
    have hne : gaps ≠ [] := by
      rintro rfl
      exact absurd hg List.not_mem_nil
    rw [List.dropLast_cons_of_ne_nil hne]
    exact List.mem_cons_of_mem gap hg

/-- A gap before another token is not empty. -/
theorem gap_ne_empty (h : Spacing (token :: tokens) (gap :: gaps)) (hne : tokens ≠ []) :
    gap ≠ "" := by
  refine h.apart gap ?_
  have hgaps : gaps ≠ [] := by
    rintro rfl
    exact hne (List.eq_nil_of_length_eq_zero (Nat.succ.inj h.paired).symm)
  rw [List.dropLast_cons_of_ne_nil hgaps]
  exact List.mem_cons_self

theorem cons (htoken : Solid token) (hgap : Blank gap) (hne : gap ≠ "")
    (h : Spacing tokens gaps) : Spacing (token :: tokens) (gap :: gaps) where
  paired := congrArg Nat.succ h.paired
  solid := List.forall_mem_cons.2 ⟨htoken, h.solid⟩
  blank := List.forall_mem_cons.2 ⟨hgap, h.blank⟩
  apart g hg := by
    by_cases hgaps : gaps = []
    · subst hgaps
      exact absurd hg List.not_mem_nil
    · rw [List.dropLast_cons_of_ne_nil hgaps] at hg
      rcases List.mem_cons.1 hg with rfl | hmem
      · exact hne
      · exact h.apart g hmem

end Spacing

/-! ## Stretches of a line -/

namespace Word

/-- Between words, a scan steps over delimiters. -/
theorem scan_between_append {gap : List Char} (h : ∀ c ∈ gap, c ∈ delimiters) (offset : Nat)
    (rest : List Char) :
    scan offset .between (gap ++ rest) = scan (offset + byteLength gap) .between rest := by
  induction gap generalizing offset with
  | nil => rfl
  | cons c gap ih =>
    obtain ⟨hc, hgap⟩ := List.forall_mem_cons.1 h
    rw [List.cons_append, scan, if_pos (isDelimiter_iff.2 hc), ih hgap, byteLength, Nat.add_assoc]

/-- Inside a word, a scan takes up what is no delimiter. -/
theorem scan_inside_append {part : List Char} (h : ∀ c ∈ part, c ∉ delimiters)
    (offset start : Nat) (taken rest : List Char) :
    scan offset (.inside start taken) (part ++ rest)
      = scan (offset + byteLength part) (.inside start (part.reverse ++ taken)) rest := by
  induction part generalizing offset taken with
  | nil => rfl
  | cons c part ih =>
    obtain ⟨hc, hpart⟩ := List.forall_mem_cons.1 h
    rw [List.cons_append, scan, isDelimiter_eq_false_iff.2 hc, if_neg Bool.false_ne_true,
      ih hpart, byteLength, Nat.add_assoc, List.reverse_cons, List.append_assoc,
      List.singleton_append]

/-- A word begins at its first character. -/
theorem scan_between_token {token : List Char} (hne : token ≠ [])
    (h : ∀ c ∈ token, c ∉ delimiters) (offset : Nat) (rest : List Char) :
    scan offset .between (token ++ rest)
      = scan (offset + byteLength token) (.inside offset token.reverse) rest := by
  cases token with
  | nil => exact absurd rfl hne
  | cons c token =>
    obtain ⟨hc, htoken⟩ := List.forall_mem_cons.1 h
    rw [List.cons_append, scan, isDelimiter_eq_false_iff.2 hc, if_neg Bool.false_ne_true,
      scan_inside_append htoken, byteLength, Nat.add_assoc, List.reverse_cons]

/-- A word ends before a delimiter. -/
theorem scan_inside_gap {gap : List Char} (hne : gap ≠ []) (h : ∀ c ∈ gap, c ∈ delimiters)
    (offset start : Nat) (taken rest : List Char) :
    scan offset (.inside start taken) (gap ++ rest)
      = ⟨start, taken.reverse⟩ :: scan (offset + byteLength gap) .between rest := by
  cases gap with
  | nil => exact absurd rfl hne
  | cons c gap =>
    obtain ⟨hc, hgap⟩ := List.forall_mem_cons.1 h
    rw [List.cons_append, scan, if_pos (isDelimiter_iff.2 hc), scan_between_append hgap,
      byteLength, Nat.add_assoc]

/-! ## Cutting and putting together -/

/-- A scan of a row finds its tokens. -/
theorem map_text_scan_row {tokens gaps : List String} (h : Spacing tokens gaps) (offset : Nat) :
    (scan offset .between (row tokens gaps).toList).map text = tokens := by
  induction tokens generalizing gaps offset with
  | nil => rfl
  | cons token tokens ih =>
    cases gaps with
    | nil => exact absurd h.paired (by simp)
    | cons gap gaps =>
      obtain ⟨hne, hsolid⟩ := h.solid token List.mem_cons_self
      have hblank := h.blank gap List.mem_cons_self
      have hchars : token.toList ≠ [] := fun hnil => hne (String.toList_eq_nil_iff.1 hnil)
      rw [row_cons, String.toList_append, String.toList_append, scan_between_token hchars hsolid]
      by_cases hgap : gap = ""
      · -- only the last gap is empty, so the word ends with the line
        have hlast : tokens = [] := by
          by_contra hmore
          exact h.gap_ne_empty hmore hgap
        subst hgap hlast
        have hrest : ("".toList ++ (row [] gaps).toList) = [] := rfl
        rw [hrest, scan, List.map_cons, List.map_nil, text, List.reverse_reverse,
          String.ofList_toList]
      · have hgapChars : gap.toList ≠ [] := fun hnil => hgap (String.toList_eq_nil_iff.1 hnil)
        rw [scan_inside_gap hgapChars hblank, List.map_cons, ih h.tail, text,
          List.reverse_reverse, String.ofList_toList]

/-- What a scan has read of a row before it comes to some characters: delimiters, or the
beginning of a token. -/
def Place.Opens : Place → Prop
  | .between => True
  | .inside _ taken => taken ≠ [] ∧ ∀ c ∈ taken, c ∉ delimiters

/-- The rest of a line, with what was read of an unfinished word, is a row of the words that a
scan finds from there. Between words there may be delimiters before it. -/
def Place.Rows (tokens : List String) (chars : List Char) : Place → Prop
  | .between => ∃ lead gaps, Blank lead ∧ Spacing tokens gaps ∧
      String.ofList chars = lead ++ row tokens gaps
  | .inside _ taken => ∃ gaps, Spacing tokens gaps ∧
      String.ofList (taken.reverse ++ chars) = row tokens gaps

theorem solid_ofList_reverse {taken : List Char} (hne : taken ≠ [])
    (h : ∀ c ∈ taken, c ∉ delimiters) : Solid (String.ofList taken.reverse) := by
  refine ⟨?_, ?_⟩
  · intro hempty
    have hnil := String.toList_eq_nil_iff.2 hempty
    rw [String.toList_ofList, List.reverse_eq_nil_iff] at hnil
    exact hne hnil
  · intro c hc
    rw [String.toList_ofList, List.mem_reverse] at hc
    exact h c hc

/-- From wherever it stands, a scan finds the words of a row. -/
theorem rows_scan (offset : Nat) (place : Place) (chars : List Char) (h : place.Opens) :
    place.Rows ((scan offset place chars).map text) chars := by
  fun_induction scan offset place chars with
  | case1 offset =>
    have hempty : Spacing [] [] := ⟨rfl, by simp, by simp, by simp⟩
    exact ⟨"", [], by simp [Blank], hempty, rfl⟩
  | case2 offset start taken =>
    -- the end of the line ends the word, with nothing after it
    have hlast : Spacing [String.ofList taken.reverse] [""] := by
      refine ⟨rfl, ?_, by simp [Blank], by simp⟩
      simpa using solid_ofList_reverse h.1 h.2
    refine ⟨[""], hlast, ?_⟩
    simp [row, text]
  | case3 offset c rest hc ih =>
    obtain ⟨lead, gaps, hlead, hspacing, hrow⟩ := ih trivial
    refine ⟨String.singleton c ++ lead, gaps, hlead.singleton_append hc, hspacing, ?_⟩
    rw [String.append_assoc, ← hrow, String.singleton_eq_ofList, ← String.ofList_append,
      List.singleton_append]
  | case4 offset c rest hc ih =>
    have hc' : c ∉ delimiters := isDelimiter_eq_false_iff.1 (Bool.eq_false_iff.2 hc)
    obtain ⟨gaps, hspacing, hrow⟩ := ih ⟨List.cons_ne_nil c [], by simpa using hc'⟩
    exact ⟨"", gaps, by simp [Blank], hspacing, by simpa using hrow⟩
  | case5 offset start taken c rest hc ih =>
    obtain ⟨lead, gaps, hlead, hspacing, hrow⟩ := ih trivial
    -- the delimiter that ends the word and those after it are the gap before the next word
    have hne : String.singleton c ++ lead ≠ "" := by
      intro hempty
      have hnil := String.toList_eq_nil_iff.2 hempty
      rw [String.toList_append, String.toList_singleton] at hnil
      exact absurd hnil (List.cons_ne_nil c lead.toList)
    refine ⟨(String.singleton c ++ lead) :: gaps,
      .cons (solid_ofList_reverse h.1 h.2) (hlead.singleton_append hc) hne hspacing, ?_⟩
    have hsplit : taken.reverse ++ c :: rest = taken.reverse ++ ([c] ++ rest) := rfl
    rw [List.map_cons, row_cons, String.append_assoc, ← hrow, hsplit, String.ofList_append,
      String.ofList_append, String.singleton_eq_ofList]
    rfl
  | case6 offset start taken c rest hc ih =>
    have hc' : c ∉ delimiters := isDelimiter_eq_false_iff.1 (Bool.eq_false_iff.2 hc)
    obtain ⟨gaps, hspacing, hrow⟩ :=
      ih ⟨List.cons_ne_nil c taken, List.forall_mem_cons.2 ⟨hc', h.2⟩⟩
    refine ⟨gaps, hspacing, ?_⟩
    rw [List.reverse_cons, List.append_assoc, List.singleton_append] at hrow
    exact hrow

end Word

/-- The words of a line are some tokens exactly if the line is a row of these tokens: each of them
has a character and no delimiter, delimiters stand between any two of them, and there may be
delimiters before the first and after the last. -/
theorem words_eq_iff (line : String) (tokens : List String) :
    words line = tokens ↔
      ∃ lead gaps, Blank lead ∧ Spacing tokens gaps ∧
        line = lead ++ String.join (List.zipWith (· ++ ·) tokens gaps) := by
  constructor
  · rintro rfl
    obtain ⟨lead, gaps, hlead, hspacing, hrow⟩ := Word.rows_scan 0 .between line.toList trivial
    rw [String.ofList_toList] at hrow
    exact ⟨lead, gaps, hlead, hspacing, hrow⟩
  · rintro ⟨lead, gaps, hlead, hspacing, rfl⟩
    rw [words, Word.ofLine, String.toList_append, Word.scan_between_append hlead]
    exact Word.map_text_scan_row hspacing _

/-- Delimiters of every kind in a row, and characters of several bytes in the words. -/
example : words "\t ls \x07\r\n grüße  /tmp " = ["ls", "grüße", "/tmp"] := by decide +kernel

end CommandShell
