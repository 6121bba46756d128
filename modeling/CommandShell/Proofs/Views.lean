import CommandShell.Proofs.Boundaries
import Mathlib.Data.List.Forall2
import Mathlib.Data.String.Basic

/-!
# Words as views of their line

A word need not be copied out of its line: it can be a view of the line between two byte offsets.
`Word.views?` makes these views in one scan that carries two offsets, that of the character at hand
and that at which the last word began. The second means something only inside a word, and what
links both to the scan for words is `Tracks`. A view can be taken only between two positions of the
line, so one wrong offset would leave no result at all; `exists_views` says that there always is
one, and where in the line its views lie.
-/

namespace CommandShell

/-! ## Views of a line -/

namespace View

/-- The offset of the first byte that a view shows. -/
def start (v : String.Slice) : Nat := v.startInclusive.offset.byteIdx

/-- The offset just after the last byte that a view shows. -/
def stop (v : String.Slice) : Nat := v.endExclusive.offset.byteIdx

end View

namespace Word

/-! ## Lengths in bytes -/

@[simp] theorem byteLength_nil : byteLength [] = 0 := rfl

@[simp] theorem byteLength_cons (c : Char) (rest : List Char) :
    byteLength (c :: rest) = c.utf8Size + byteLength rest := rfl

theorem byteLength_eq_utf8Len (chars : List Char) : byteLength chars = String.utf8Len chars := by
  induction chars with
  | nil => rfl
  | cons c rest ih => rw [byteLength_cons, ih, String.utf8Len_cons, Nat.add_comm]

@[simp] theorem byteLength_append (first second : List Char) :
    byteLength (first ++ second) = byteLength first + byteLength second := by
  simp only [byteLength_eq_utf8Len, String.utf8Len_append]

theorem byteLength_pos {chars : List Char} (h : chars ≠ []) : 0 < byteLength chars := by
  cases chars with
  | nil => exact absurd rfl h
  | cons c rest =>
    have hc := c.utf8Size_pos
    rw [byteLength_cons]
    omega

theorem utf8ByteSize_ofList (chars : List Char) :
    (String.ofList chars).utf8ByteSize = byteLength chars := by
  rw [String.utf8ByteSize_ofList, byteLength_eq_utf8Len]

theorem byteLength_toList (line : String) : byteLength line.toList = line.utf8ByteSize := by
  rw [byteLength_eq_utf8Len, String.utf8Len_toList]

/-! ## Two scans of one line -/

/-- Where the scan for views stands while the scan for words stands at a place. Between words the
offset of the last word says nothing. -/
inductive Tracks : Kind → (last offset : Nat) → Place → Prop
  | between {last offset : Nat} : Tracks .delimiter last offset .between
  | inside {start offset : Nat} {taken : List Char}
    (reached : start + byteLength taken.reverse = offset) :
    Tracks .other start offset (.inside start taken)

/-- The scan for views takes a view of each word that the other scan finds, between the offsets of
that word. -/
theorem viewsFrom?_eq {line : String} {before : Kind} {last offset : Nat} {place : Place}
    {chars : List Char} (htracks : Tracks before last offset place)
    (hsize : offset + byteLength chars = line.utf8ByteSize) :
    viewsFrom? line before last offset chars
      = (scan offset place chars).mapM fun w => view? line w.start w.stop := by
  induction chars generalizing before last offset place with
  | nil =>
    cases htracks with
    | between => rfl
    | @inside _ _ taken reached =>
      -- the open word ends with the line
      have hstop : last + byteLength taken.reverse = line.utf8ByteSize := by
        rw [reached]
        exact hsize
      rw [scan, List.mapM_cons, List.mapM_nil, stop, hstop]
      rfl
  | cons c rest ih =>
    have hrest : offset + c.utf8Size + byteLength rest = line.utf8ByteSize := by
      rw [Nat.add_assoc]
      exact hsize
    unfold viewsFrom?
    cases hc : isDelimiter c with
    | true =>
      have hkind : Kind.of c = .delimiter := by rw [Kind.of, hc, if_pos rfl]
      rw [hkind]
      cases htracks with
      | between =>
        -- the offset of the last word stays as it is, and is not read
        rw [scan, if_pos hc]
        exact ih .between hrest
      | @inside _ _ taken reached =>
        rw [scan, if_pos hc, List.mapM_cons, stop, reached, ← ih .between hrest]
    | false =>
      have hkind : Kind.of c = .other := by rw [Kind.of, hc, if_neg Bool.false_ne_true]
      rw [hkind]
      cases htracks with
      | between =>
        -- a word begins, and its offset replaces that of the last one
        rw [scan, hc, if_neg Bool.false_ne_true]
        apply ih _ hrest
        exact .inside rfl
      | @inside _ _ taken reached =>
        rw [scan, hc, if_neg Bool.false_ne_true]
        apply ih _ hrest
        apply Tracks.inside
        rw [List.reverse_cons, byteLength_append, ← Nat.add_assoc, reached]
        rfl

/-! ## Words at their places -/

/-- A word stands at its own place among characters that begin at a byte offset. -/
def Stands (offset : Nat) (chars : List Char) (w : Word) : Prop :=
  ∃ before after, chars = before ++ w.chars ++ after ∧ w.start = offset + byteLength before

namespace Stands

variable {offset : Nat} {chars : List Char} {w : Word}

theorem start_le (h : Stands offset chars w) : offset ≤ w.start := by
  obtain ⟨before, after, -, hstart⟩ := h
  omega

theorem stop_le (h : Stands offset chars w) : w.stop ≤ offset + byteLength chars := by
  obtain ⟨before, after, rfl, hstart⟩ := h
  rw [byteLength_append, byteLength_append]
  unfold stop
  omega

theorem append_right (h : Stands offset chars w) (more : List Char) :
    Stands offset (chars ++ more) w := by
  obtain ⟨before, after, rfl, hstart⟩ := h
  refine ⟨before, after ++ more, ?_, hstart⟩
  rw [List.append_assoc]

theorem append_left {first : List Char} (h : Stands (offset + byteLength first) chars w) :
    Stands offset (first ++ chars) w := by
  obtain ⟨before, after, rfl, hstart⟩ := h
  refine ⟨first ++ before, after, ?_, ?_⟩
  · simp only [List.append_assoc]
  · rw [hstart, byteLength_append, Nat.add_assoc]

end Stands

/-! ## Bytes of words -/

/-- The byte at the offset `i` is one of a character that is no delimiter, among characters that
begin at a byte offset. -/
def Inked (offset : Nat) (chars : List Char) (i : Nat) : Prop :=
  ∃ before c after, chars = before ++ c :: after ∧ c ∉ delimiters ∧
    offset + byteLength before ≤ i ∧ i < offset + byteLength before + c.utf8Size

theorem not_inked_nil (offset i : Nat) : ¬Inked offset [] i := by
  rintro ⟨before, c, after, hnil, -⟩
  simp at hnil

theorem inked_cons {offset : Nat} {c : Char} {rest : List Char} {i : Nat} :
    Inked offset (c :: rest) i ↔
      (c ∉ delimiters ∧ offset ≤ i ∧ i < offset + c.utf8Size) ∨
        Inked (offset + c.utf8Size) rest i := by
  constructor
  · rintro ⟨before, d, after, hchars, hd, hle, hlt⟩
    cases before with
    | nil =>
      obtain ⟨rfl, rfl⟩ := List.cons.inj hchars
      exact Or.inl ⟨hd, hle, hlt⟩
    | cons e before =>
      obtain ⟨rfl, rfl⟩ := List.cons.inj hchars
      rw [byteLength_cons] at hle hlt
      exact Or.inr ⟨before, d, after, rfl, hd, by omega, by omega⟩
  · rintro (⟨hc, hle, hlt⟩ | ⟨before, d, after, rfl, hd, hle, hlt⟩)
    · exact ⟨[], c, rest, rfl, hc, hle, hlt⟩
    · have hlength := byteLength_cons c before
      exact ⟨c :: before, d, after, rfl, hd, by omega, by omega⟩

theorem inked_append {offset : Nat} {first second : List Char} {i : Nat} :
    Inked offset (first ++ second) i ↔
      Inked offset first i ∨ Inked (offset + byteLength first) second i := by
  induction first generalizing offset with
  | nil =>
    have hnil := not_inked_nil offset i
    exact ⟨Or.inr, fun h => h.resolve_left hnil⟩
  | cons c first ih =>
    rw [List.cons_append, inked_cons, inked_cons, ih, or_assoc, byteLength_cons, Nat.add_assoc]

theorem inked_token {token : List Char} (h : ∀ c ∈ token, c ∉ delimiters) {offset i : Nat} :
    Inked offset token i ↔ offset ≤ i ∧ i < offset + byteLength token := by
  induction token generalizing offset with
  | nil =>
    have hnil := not_inked_nil offset i
    rw [byteLength_nil]
    constructor
    · intro hinked
      exact absurd hinked hnil
    · omega
  | cons c token ih =>
    obtain ⟨hc, htoken⟩ := List.forall_mem_cons.1 h
    rw [inked_cons, ih htoken, byteLength_cons]
    constructor
    · omega
    · intro hrange
      by_cases hfirst : i < offset + c.utf8Size
      · exact Or.inl ⟨hc, hrange.1, hfirst⟩
      · exact Or.inr (by omega)

/-! ## Words laid out on characters -/

/-- Some words lie on characters that begin at a byte offset: each at its own place, one after the
other with a gap between them, on all bytes of characters that are no delimiters and on no
others. -/
structure Laid (offset : Nat) (chars : List Char) (found : List Word) : Prop where
  stands : ∀ w ∈ found, Stands offset chars w
  nonempty : ∀ w ∈ found, w.chars ≠ []
  apart : found.Pairwise fun u w => u.stop < w.start
  inked : ∀ i, (∃ w ∈ found, w.start ≤ i ∧ i < w.stop) ↔ Inked offset chars i

variable {offset : Nat} {token rest : List Char} {found later : List Word}

theorem laid_token (h : ∀ c ∈ token, c ∉ delimiters) :
    Laid offset token (ofToken offset token) := by
  by_cases hne : token = []
  · subst hne
    refine ⟨by simp [ofToken], by simp [ofToken], by simp [ofToken], fun i => ?_⟩
    have hnil := not_inked_nil offset i
    simp [ofToken, hnil]
  · rw [ofToken, if_neg hne]
    refine ⟨?_, ?_, List.pairwise_singleton _ _, fun i => ?_⟩
    · intro w hw
      obtain rfl := List.mem_singleton.1 hw
      exact ⟨[], [], by simp, rfl⟩
    · intro w hw
      obtain rfl := List.mem_singleton.1 hw
      exact hne
    · rw [inked_token h]
      simp [stop]

theorem Laid.separated {separator : Char} (hfound : Laid offset token found)
    (hseparator : isDelimiter separator = true)
    (hlater : Laid (offset + byteLength token + separator.utf8Size) rest later) :
    Laid offset (token ++ separator :: rest) (found ++ later) := by
  have hpos := separator.utf8Size_pos
  -- the later words stand behind the separator
  have hbehind : ∀ w ∈ later, Stands offset (token ++ separator :: rest) w := by
    intro w hw
    have hstands := hlater.stands w hw
    have hlength : offset + byteLength token + separator.utf8Size
        = offset + byteLength (token ++ [separator]) := by
      simp [Nat.add_assoc]
    rw [hlength] at hstands
    rw [List.append_cons]
    exact hstands.append_left
  refine ⟨?_, ?_, ?_, ?_⟩
  · intro w hw
    rcases List.mem_append.1 hw with hw | hw
    · exact (hfound.stands w hw).append_right _
    · exact hbehind w hw
  · intro w hw
    rcases List.mem_append.1 hw with hw | hw
    · exact hfound.nonempty w hw
    · exact hlater.nonempty w hw
  · apply List.pairwise_append.2
    refine ⟨hfound.apart, hlater.apart, fun u hu w hw => ?_⟩
    have hu := (hfound.stands u hu).stop_le
    have hw := (hlater.stands w hw).start_le
    omega
  · intro i
    have hnot : ¬(separator ∉ delimiters ∧ offset + byteLength token ≤ i
        ∧ i < offset + byteLength token + separator.utf8Size) :=
      fun h => h.1 (isDelimiter_iff.1 hseparator)
    rw [inked_append, inked_cons, or_iff_right hnot, ← hfound.inked, ← hlater.inked]
    simp only [List.mem_append, or_and_right, exists_or]

/-- What a scan finds lies on the characters that it scans. -/
theorem laid_scan (chars : List Char) (offset : Nat) :
    Laid offset chars (scan offset .between chars) := by
  induction chars using separated_induction isDelimiter generalizing offset with
  | last token htoken =>
    rw [scan_token (solid htoken)]
    exact laid_token (solid htoken)
  | next token separator rest htoken hseparator ih =>
    -- the first stretch makes at most one word, and the others lie behind its delimiter
    rw [scan_separated (solid htoken) hseparator]
    exact (laid_token (solid htoken)).separated hseparator (ih _)

/-! ## Views of words -/

/-- A view shows a word at its own place in a line. -/
structure Shows (line : String) (w : Word) (v : String.Slice) : Prop where
  line : v.str = line
  start : View.start v = w.start
  stop : View.stop v = w.stop
  text : v.copy = w.text

theorem pos?_offset {line : String} (p : line.Pos) : line.pos? p.offset = some p := by
  have hvalid : String.Pos.Raw.isValidForSlice line.toSlice p.offset = true :=
    String.Pos.Raw.isValidForSlice_eq_true_iff.2 p.toSlice.isValidForSlice
  rw [String.pos?, String.Slice.pos?, dif_pos hvalid, Option.map_some]
  rfl

/-- Of a word at its place a view can be taken, and it shows this word. -/
theorem Stands.exists_view {line : String} {w : Word} (h : Stands 0 line.toList w) :
    ∃ v, view? line w.start w.stop = some v ∧ Shows line w v := by
  obtain ⟨before, after, hline, hstart⟩ := h
  rw [Nat.zero_add] at hstart
  have hcut : line = String.ofList before ++ (w.text ++ String.ofList after) := by
    rw [text, ← String.ofList_append, ← String.ofList_append, ← List.append_assoc, ← hline,
      String.ofList_toList]
  have hcut' : line = String.ofList before ++ w.text ++ String.ofList after := by
    rw [String.append_assoc]
    exact hcut
  -- the two positions, each given by what is before it and what is after it
  have hfirst := String.Pos.splits_ofEqAppend hcut
  have hpast := String.Pos.splits_ofEqAppend hcut'
  generalize String.Pos.ofEqAppend hcut = first at hfirst
  generalize String.Pos.ofEqAppend hcut' = past at hpast
  have hfirstOffset : first.offset = ⟨w.start⟩ := by
    rw [hfirst.offset_eq_rawEndPos, hstart, ← utf8ByteSize_ofList]
    rfl
  have hpastOffset : past.offset = ⟨w.stop⟩ := by
    rw [hpast.offset_eq_rawEndPos, stop, hstart, ← utf8ByteSize_ofList, ← utf8ByteSize_ofList,
      ← text, ← String.utf8ByteSize_append]
    rfl
  obtain ⟨hle, hcopy⟩ := String.copy_slice_eq_iff_splits.2 ⟨_, _, hfirst, hpast⟩
  have hview : view? line w.start w.stop = some (line.slice first past hle) := by
    rw [view?, ← hfirstOffset, ← hpastOffset, pos?_offset, pos?_offset]
    exact dif_pos hle
  refine ⟨_, hview, String.str_slice, ?_, ?_, hcopy⟩
  · rw [View.start, String.startInclusive_slice, hfirstOffset]
  · rw [View.stop, String.endExclusive_slice, hpastOffset]

/-- Of words at their places the views are taken one after the other, and none of them fails. -/
theorem exists_mapM_view? {line : String}
    (h : ∀ w ∈ found, Stands 0 line.toList w) :
    ∃ views, found.mapM (fun w => view? line w.start w.stop) = some views ∧
      List.Forall₂ (Shows line) found views := by
  induction found with
  | nil => exact ⟨[], rfl, .nil⟩
  | cons w found ih =>
    obtain ⟨hw, hfound⟩ := List.forall_mem_cons.1 h
    obtain ⟨v, hview, hshows⟩ := hw.exists_view
    obtain ⟨views, hviews, hall⟩ := ih hfound
    refine ⟨v :: views, ?_, .cons hshows hall⟩
    rw [List.mapM_cons, hview, hviews]
    rfl

/-- What a view has in common with the word that it shows, the views have in common with the
words. -/
theorem map_of_shows {α : Type} {line : String} {views : List String.Slice} {ofWord : Word → α}
    {ofView : String.Slice → α} (hall : List.Forall₂ (Shows line) found views)
    (h : ∀ w v, Shows line w v → ofView v = ofWord w) : views.map ofView = found.map ofWord := by
  induction hall with
  | nil => rfl
  | cons hshows _ ih => rw [List.map_cons, List.map_cons, ih, h _ _ hshows]

theorem exists_shown {line : String} {views : List String.Slice} {v : String.Slice}
    (hall : List.Forall₂ (Shows line) found views) (hv : v ∈ views) :
    ∃ w ∈ found, Shows line w v := by
  induction hall with
  | nil => cases hv
  | cons hshows _ ih =>
    rcases List.mem_cons.1 hv with rfl | hv
    · exact ⟨_, List.mem_cons_self, hshows⟩
    · obtain ⟨w, hw, hshows⟩ := ih hv
      exact ⟨w, List.mem_cons_of_mem _ hw, hshows⟩

/-- The view of a word that lies on a line is not empty, and keeps to the positions of the
line. -/
theorem Laid.bounds {line : String} {w : Word} {v : String.Slice}
    (hlaid : Laid 0 line.toList found) (hw : w ∈ found) (h : Shows line w v) :
    View.start v < View.stop v ∧ View.stop v ≤ line.utf8ByteSize ∧
      String.Pos.Raw.IsValid line ⟨View.start v⟩ ∧
      String.Pos.Raw.IsValid line ⟨View.stop v⟩ := by
  obtain ⟨rfl, hstart, hstop, -⟩ := h
  have hinside := (hlaid.stands w hw).stop_le
  have hlength := byteLength_toList v.str
  have hpos := byteLength_pos (hlaid.nonempty w hw)
  have hwidth : w.stop = w.start + byteLength w.chars := rfl
  exact ⟨by omega, by omega, v.startInclusive.isValid, v.endExclusive.isValid⟩

theorem inked_line {line : String} {i : Nat} :
    Inked 0 line.toList i ↔
      ∃ before c after, line = before ++ String.singleton c ++ after ∧ c ∉ delimiters ∧
        before.utf8ByteSize ≤ i ∧ i < before.utf8ByteSize + c.utf8Size := by
  constructor
  · rintro ⟨before, c, after, hline, hc, hle, hlt⟩
    refine ⟨String.ofList before, c, String.ofList after, ?_, hc, ?_, ?_⟩
    · rw [String.singleton_eq_ofList, ← String.ofList_append, ← String.ofList_append,
        List.append_assoc, List.singleton_append, ← hline, String.ofList_toList]
    · rw [utf8ByteSize_ofList]
      omega
    · rw [utf8ByteSize_ofList]
      omega
  · rintro ⟨before, c, after, rfl, hc, hle, hlt⟩
    have hlength := byteLength_toList before
    refine ⟨before.toList, c, after.toList, ?_, hc, by omega, by omega⟩
    rw [String.toList_append, String.toList_append, String.toList_singleton, List.append_assoc,
      List.singleton_append]

end Word

/-- The words of every line can be had as views: none of them is taken at a wrong offset. The views
have the texts of the words, and begin and end where the scan for words says. Each is a view of
this line that shows at least one byte and begins and ends between two characters or at an end of
the line. They follow one another with at least a byte between neighbours, so words with one text
are different views, and they show exactly the bytes of the characters that are no delimiters. -/
theorem exists_views (line : String) :
    ∃ views, Word.views? line = some views ∧
      views.map String.Slice.copy = words line ∧
      views.map (fun v => (View.start v, View.stop v))
        = (Word.ofLine line).map (fun w => (w.start, w.stop)) ∧
      (∀ v ∈ views, v.str = line ∧ View.start v < View.stop v ∧
        View.stop v ≤ line.utf8ByteSize ∧ String.Pos.Raw.IsValid line ⟨View.start v⟩ ∧
        String.Pos.Raw.IsValid line ⟨View.stop v⟩) ∧
      views.Pairwise (fun u v => View.stop u < View.start v) ∧
      views.Nodup ∧
      ∀ i, (∃ v ∈ views, View.start v ≤ i ∧ i < View.stop v) ↔
        ∃ before c after, line = before ++ String.singleton c ++ after ∧ c ∉ delimiters ∧
          before.utf8ByteSize ≤ i ∧ i < before.utf8ByteSize + c.utf8Size := by
  have hlaid : Word.Laid 0 line.toList (Word.ofLine line) := Word.laid_scan line.toList 0
  have hviews? : Word.views? line
      = (Word.ofLine line).mapM fun w => Word.view? line w.start w.stop := by
    apply Word.viewsFrom?_eq .between
    rw [Nat.zero_add]
    exact Word.byteLength_toList line
  obtain ⟨views, hviews, hall⟩ := Word.exists_mapM_view? hlaid.stands
  have hspans : views.map (fun v => (View.start v, View.stop v))
      = (Word.ofLine line).map fun w => (w.start, w.stop) :=
    Word.map_of_shows hall fun w v h => by rw [h.start, h.stop]
  have hbounds : ∀ v ∈ views, v.str = line ∧ View.start v < View.stop v ∧
      View.stop v ≤ line.utf8ByteSize ∧ String.Pos.Raw.IsValid line ⟨View.start v⟩ ∧
      String.Pos.Raw.IsValid line ⟨View.stop v⟩ := by
    intro v hv
    obtain ⟨w, hw, hshows⟩ := Word.exists_shown hall hv
    exact ⟨hshows.line, hlaid.bounds hw hshows⟩
  have hapart : views.Pairwise fun u v => View.stop u < View.start v := by
    have hpairs : ((Word.ofLine line).map fun w => (w.start, w.stop)).Pairwise
        fun a b => a.2 < b.1 := List.pairwise_map.2 hlaid.apart
    rw [← hspans] at hpairs
    exact List.pairwise_map.1 hpairs
  refine ⟨views, hviews?.trans hviews, Word.map_of_shows hall fun w v h => h.text, hspans,
    hbounds, hapart, ?_, fun i => ?_⟩
  · -- a view does not end before it begins
    apply hapart.imp_of_mem
    rintro u v hu - huv rfl
    have hwidth := (hbounds u hu).2.1
    omega
  · have hcovered : (∃ v ∈ views, View.start v ≤ i ∧ i < View.stop v) ↔
        ∃ w ∈ Word.ofLine line, w.start ≤ i ∧ i < w.stop := by
      have hmem : (∃ span ∈ views.map fun v => (View.start v, View.stop v),
          span.1 ≤ i ∧ i < span.2) ↔
          ∃ span ∈ (Word.ofLine line).map fun w => (w.start, w.stop),
            span.1 ≤ i ∧ i < span.2 := by rw [hspans]
      simpa only [List.mem_map, exists_exists_and_eq_and] using hmem
    rw [hcovered, hlaid.inked i, Word.inked_line]

/-- Two words with one text, of characters that take two bytes each. -/
example : (Word.views? "éé\téé").map (List.map fun v => (v.copy, View.start v, View.stop v))
    = some [("éé", 0, 4), ("éé", 5, 9)] := by decide +kernel

end CommandShell
