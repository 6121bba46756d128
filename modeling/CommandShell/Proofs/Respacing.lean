import CommandShell.Proofs.Boundaries
import CommandShell.Proofs.Commands
import CommandShell.Proofs.Rebuilding
import CommandShell.Proofs.SideBySide
import CommandShell.Rehearsal
import Mathlib.Data.List.Basic

/-!
# How lines are spaced

A session knows its lines by their words (`Input.congruent_sameWords`), so spaces, tabs, carriage
returns and bells may be put wherever they make no new word: next to another such byte, or at the
end of a line. This is so whatever the bytes around them are, since a delimiter ends what could be
an encoding (`words_decode_insert`). One insertion changes the words of no line
(`Input.sameWords_insert`), nor do many (`Respaced.sameWords`); in particular every line may end in
a carriage return and a newline (`respaced_withReturns`).
-/

namespace CommandShell

/-! ## Lines with the same words -/

namespace Input

/-- The reads from one input give lines of the same words as those from the other, or end alike. -/
def SameWords (input input' : List Item) : Prop :=
  ∀ n, (nthRead input n).reading.map words = (nthRead input' n).reading.map words

theorem SameWords.refl (input : List Item) : SameWords input input := fun _ => rfl

theorem SameWords.trans {input input' input'' : List Item} (h : SameWords input input')
    (h' : SameWords input' input'') : SameWords input input'' := fun n => (h n).trans (h' n)

theorem sameWords_of_readLine {input input' : List Item}
    (hfirst : (readLine input).reading.map words = (readLine input').reading.map words)
    (hrest : SameWords (readLine input).rest (readLine input').rest) : SameWords input input'
  | 0 => hfirst
  | n + 1 => hrest n

theorem congruent_sameWords : Congruent SameWords where
  reading h := h 0
  rest h n := h (n + 1)

end Input

/-! ## Blanks -/

/-- The bytes of the delimiters that may stand in a line: space, tab, carriage return and bell. -/
def isBlankByte (b : UInt8) : Bool := b == 0x20 || b == 0x09 || b == 0x0D || b == 0x07

/-- The bytes are blanks. -/
def BlankBytes (gap : List UInt8) : Prop := ∀ b ∈ gap, isBlankByte b = true

theorem isDelimiterByte_of_blank {b : UInt8} (h : isBlankByte b = true) :
    isDelimiterByte b = true := by
  simp only [isBlankByte, Bool.or_eq_true, or_assoc] at h
  simp only [isDelimiterByte, Bool.or_eq_true, or_assoc]
  tauto

theorem newline_of_blank {b : UInt8} (h : isBlankByte b = true) :
    (b == Input.newline) = false := by
  rw [beq_eq_false_iff_ne]
  rintro rfl
  exact absurd h (by decide)

theorem words_decode_nil : words (Utf8.decode []) = [] := by
  rw [Utf8.decode_nil]
  rfl

variable {before gap after : List UInt8}

/-- Blanks before some bytes add no word. -/
theorem words_decode_gap_append (h : BlankBytes gap) (after : List UInt8) :
    words (Utf8.decode (gap ++ after)) = words (Utf8.decode after) := by
  induction gap with
  | nil => rfl
  | cons b gap ih =>
    obtain ⟨hb, hgap⟩ := List.forall_mem_cons.1 h
    have hsep := words_decode_separated [] (gap ++ after) (isDelimiterByte_of_blank hb)
    rwa [words_decode_nil, List.nil_append, List.nil_append, ih hgap] at hsep

/-- Blanks after some bytes add no word. -/
theorem words_decode_append_gap (before : List UInt8) (h : BlankBytes gap) :
    words (Utf8.decode (before ++ gap)) = words (Utf8.decode before) := by
  cases gap with
  | nil => rw [List.append_nil]
  | cons b gap =>
    obtain ⟨hb, hgap⟩ := List.forall_mem_cons.1 h
    have hnone := words_decode_gap_append hgap []
    rw [List.append_nil, words_decode_nil] at hnone
    rw [words_decode_separated before gap (isDelimiterByte_of_blank hb), hnone, List.append_nil]

/-- The place between some bytes is next to a blank. -/
def NextToBlank (before after : List UInt8) : Prop :=
  (∃ b ∈ before.getLast?, isBlankByte b = true) ∨ ∃ b ∈ after.head?, isBlankByte b = true

/-- Blanks in a line, next to another blank or at its end, leave its words as they are. -/
theorem words_decode_insert (h : BlankBytes gap) (place : NextToBlank before after ∨ after = []) :
    words (Utf8.decode (before ++ gap ++ after)) = words (Utf8.decode (before ++ after)) := by
  rcases place with (⟨b, hlast, hb⟩ | ⟨b, hhead, hb⟩) | rfl
  · obtain ⟨first, rfl⟩ := List.getLast?_eq_some_iff.1 hlast
    have hdelimiter := isDelimiterByte_of_blank hb
    simp only [List.append_assoc, List.cons_append, List.nil_append]
    rw [words_decode_separated first _ hdelimiter, words_decode_separated first _ hdelimiter,
      words_decode_gap_append h]
  · obtain ⟨rest, rfl⟩ := List.head?_eq_some_iff.1 hhead
    have hdelimiter := isDelimiterByte_of_blank hb
    rw [words_decode_separated _ rest hdelimiter, words_decode_separated _ rest hdelimiter,
      words_decode_append_gap before h]
  · rw [List.append_nil, List.append_nil, words_decode_append_gap before h]

/-! ## Blanks in an input -/

/-- Blanks make no new word between some bytes: they are next to a blank, or a line ends there. -/
def MayBlank (before after : List UInt8) : Prop :=
  NextToBlank before after ∨ after.head? = some Input.newline

/-- What came before the last newline has no part in it. -/
theorem MayBlank.of_line {line : List UInt8}
    (h : MayBlank (line ++ Input.newline :: before) after) : MayBlank before after := by
  rcases h with (⟨b, hlast, hb⟩ | hhead) | hnewline
  · cases before with
    | nil =>
      rw [List.getLast?_append_cons] at hlast
      obtain rfl : Input.newline = b := Option.some.inj hlast
      exact absurd hb (by decide)
    | cons c before =>
      rw [List.getLast?_append_cons, List.getLast?_cons_cons] at hlast
      exact .inl (.inl ⟨b, hlast, hb⟩)
  · exact .inl (.inr hhead)
  · exact .inr hnewline

namespace Input

/-- Inputs that begin with lines of the same words and go on alike. -/
theorem sameWords_lines {line line' rest rest' : List UInt8}
    (hline : ∀ b ∈ line, (b == newline) = false) (hline' : ∀ b ∈ line', (b == newline) = false)
    (hwords : words (Utf8.decode line) = words (Utf8.decode line'))
    (hrest : SameWords (rest.map .byte) (rest'.map .byte)) :
    SameWords ((line ++ newline :: rest).map .byte) ((line' ++ newline :: rest').map .byte) := by
  simp only [List.map_append, List.map_cons]
  refine sameWords_of_readLine ?_ ?_
  · rw [readLine_line hline, readLine_line hline']
    exact congrArg Reading.line hwords
  · rw [readLine_line hline, readLine_line hline']
    exact hrest

/-- Inputs of one line without a newline. -/
theorem sameWords_lasts {line line' : List UInt8} (hline : ∀ b ∈ line, (b == newline) = false)
    (hline' : ∀ b ∈ line', (b == newline) = false) (hne : line ≠ []) (hne' : line' ≠ [])
    (hwords : words (Utf8.decode line) = words (Utf8.decode line')) :
    SameWords (line.map .byte) (line'.map .byte) := by
  refine sameWords_of_readLine ?_ ?_
  · rw [readLine_last hline hne, readLine_last hline' hne']
    exact congrArg Reading.line hwords
  · rw [readLine_last hline hne, readLine_last hline' hne']
    exact .refl _

/-- Blanks at such a place change the words of no line. -/
theorem sameWords_insert (place : MayBlank before after) (h : BlankBytes gap) :
    SameWords ((before ++ after).map .byte) ((before ++ gap ++ after).map .byte) := by
  have hgap : ∀ b ∈ gap, (b == newline) = false := fun b hb => newline_of_blank (h b hb)
  induction before using separated_induction (· == newline) with
  | next line separator before hline hseparator ih =>
    -- the first line is read from both, and the place is further on
    obtain rfl : separator = newline := by simpa using hseparator
    simp only [List.append_assoc, List.cons_append] at ih ⊢
    exact sameWords_lines hline hline rfl (ih place.of_line)
  | last before hbefore =>
    induction after using separated_induction (· == newline) with
    | next line separator rest hline hseparator _ =>
      -- the place is in the first line
      obtain rfl : separator = newline := by simpa using hseparator
      have hplace : NextToBlank before line ∨ line = [] := by
        cases line with
        | nil => exact .inr rfl
        | cons b line =>
          rcases place with hplace | hnewline
          · exact .inl hplace
          · obtain rfl : b = newline := Option.some.inj hnewline
            exact absurd (hline _ List.mem_cons_self) (by decide)
      have hfirst : ∀ b ∈ before ++ line, (b == newline) = false :=
        List.forall_mem_append.2 ⟨hbefore, hline⟩
      have hfirst' : ∀ b ∈ before ++ gap ++ line, (b == newline) = false :=
        List.forall_mem_append.2 ⟨List.forall_mem_append.2 ⟨hbefore, hgap⟩, hline⟩
      rw [← List.append_assoc, ← List.append_assoc (before ++ gap)]
      exact sameWords_lines hfirst hfirst' (words_decode_insert h hplace).symm (.refl _)
    | last after hafter =>
      -- the place is in a last line without a newline
      have hplace : NextToBlank before after := by
        rcases place with hplace | hnewline
        · exact hplace
        · exact absurd (hafter _ (List.mem_of_head? hnewline)) (by decide)
      have hne : before ++ after ≠ [] := by
        rcases hplace with ⟨b, hlast, -⟩ | ⟨b, hhead, -⟩
        · exact List.append_ne_nil_of_left_ne_nil (by rintro rfl; cases hlast) _
        · exact List.append_ne_nil_of_right_ne_nil _ (by rintro rfl; cases hhead)
      have hne' : before ++ gap ++ after ≠ [] := by
        rw [List.append_assoc]
        intro heq
        obtain ⟨hbefore, hlater⟩ := List.append_eq_nil_iff.1 heq
        exact hne (List.append_eq_nil_iff.2 ⟨hbefore, (List.append_eq_nil_iff.1 hlater).2⟩)
      have hlast : ∀ b ∈ before ++ after, (b == newline) = false :=
        List.forall_mem_append.2 ⟨hbefore, hafter⟩
      have hlast' : ∀ b ∈ before ++ gap ++ after, (b == newline) = false :=
        List.forall_mem_append.2 ⟨List.forall_mem_append.2 ⟨hbefore, hgap⟩, hafter⟩
      exact sameWords_lasts hlast hlast' hne hne' (words_decode_insert h (.inl hplace)).symm

end Input

/-- Blanks are put into some bytes, any number of them at any number of places. -/
inductive Respaced : List UInt8 → List UInt8 → Prop
  | refl (bytes : List UInt8) : Respaced bytes bytes
  | insert {bytes before gap after : List UInt8} (sofar : Respaced bytes (before ++ after))
    (place : MayBlank before after) (blank : BlankBytes gap) :
    Respaced bytes (before ++ gap ++ after)

theorem Respaced.sameWords {bytes bytes' : List UInt8} (h : Respaced bytes bytes') :
    Input.SameWords (bytes.map .byte) (bytes'.map .byte) := by
  induction h with
  | refl => exact .refl _
  | insert _ place blank ih => exact ih.trans (Input.sameWords_insert place blank)

/-- Puts a carriage return before every newline. -/
def withReturns (bytes : List UInt8) : List UInt8 :=
  bytes.flatMap fun b => if b = Input.newline then [0x0D, b] else [b]

/-- From the left to the right, each carriage return is put before a newline. -/
theorem respaced_append_withReturns (before bytes : List UInt8) :
    Respaced (before ++ bytes) (before ++ withReturns bytes) := by
  induction bytes generalizing before with
  | nil => exact .refl _
  | cons b bytes ih =>
    have hlater := ih (before ++ [b])
    rw [List.append_assoc, List.append_assoc] at hlater
    by_cases hb : b = Input.newline
    · have hreturn : BlankBytes [0x0D] := by simp [BlankBytes, isBlankByte]
      have hinsert := hlater.insert (.inr (congrArg some hb)) hreturn
      rw [withReturns, List.flatMap_cons, if_pos hb]
      rwa [List.append_assoc] at hinsert
    · rw [withReturns, List.flatMap_cons, if_neg hb]
      exact hlater

theorem respaced_withReturns (bytes : List UInt8) : Respaced bytes (withReturns bytes) :=
  respaced_append_withReturns [] bytes

/-! ## Sessions -/

namespace Session

variable {σ : Type}

/-- How the lines of an input of bytes are spaced does not change a session: but for its reads it
does the same, it answers alike, and it leaves the same world. In particular all lines may end in
a carriage return and a newline. -/
theorem run_respaced (sys : System σ) (settings : Settings) (bytes : List UInt8) (w : World σ) :
    Respaced bytes (withReturns bytes) ∧ ∀ bytes', Respaced bytes bytes' →
      let ending := run sys settings (bytes.map .byte) w
      let ending' := run sys settings (bytes'.map .byte) w
      ending.trace.withoutReads = ending'.trace.withoutReads ∧
        ending.answer = ending'.answer ∧ ending.world = ending'.world := by
  refine ⟨respaced_withReturns bytes, fun bytes' hbytes => ?_⟩
  have h := run_related Input.congruent_sameWords (Action.compositional_respects_eq sys) settings
    hbytes.sameWords (Eq.refl w)
  exact ⟨h.does, h.answer, h.world⟩

/-- Two lines with truncated encodings next to a blank and at the end of a line. -/
def brokenLines : List UInt8 := [0x6C, 0x73, 0xE2, 0x82, 0x20, 0x61, 0xC3, 0x0A, 0x66, 0xFF, 0x0A]

/-- The same lines with tabs and bells after the blank, and carriage returns. -/
def brokenLinesRespaced : List UInt8 :=
  [0x6C, 0x73, 0xE2, 0x82, 0x20, 0x09, 0x07, 0x61, 0xC3, 0x0D, 0x0A, 0x66, 0xFF, 0x0D, 0x0A]

/-- A rehearsal at the root of an empty tree, with streams that always work. -/
def rehearsalWorld : World Rehearsal := ⟨{}, {}, (⟨⟨[]⟩, []⟩, [])⟩

theorem run_respaced_broken :
    Respaced brokenLines (withReturns brokenLines) ∧
      Respaced brokenLines brokenLinesRespaced ∧
      (run Rehearsal.system {} (brokenLinesRespaced.map .byte)
          rehearsalWorld).trace.withoutReads.commands
        = [["ls\uFFFD", "a\uFFFD"], ["f\uFFFD"]] := by
  obtain ⟨hreturns, hsame⟩ := run_respaced Rehearsal.system {} brokenLines rehearsalWorld
  have hblank : Respaced brokenLines brokenLinesRespaced :=
    @Respaced.insert _ (brokenLines.take 5) [0x09, 0x07] ((withReturns brokenLines).drop 5)
      hreturns (.inl (.inl ⟨0x20, by decide, by decide⟩)) (by simp [BlankBytes, isBlankByte])
  refine ⟨hreturns, hblank, ?_⟩
  rw [← (hsame _ hblank).1]
  decide +kernel

end Session
end CommandShell
