import CommandShell.Proofs.Commands
import CommandShell.Proofs.Stretches

/-!
# The turns of a session

A session over a finite input is a finite row of turns: `Turns` says which turns a session takes and
how it ends, and knows nothing of how it is run. A turn after which it goes on has read a line, and
with it a newline or a mark of the end of the stream, unless nothing is left of the input; so these
bound the number of turns (`Turns.length_le`). Every turn reads the stretch of the input that comes
next, and does what is to be done after that read and nothing else, so no line is run twice and none
is left out (`run_turns`).
-/

namespace CommandShell

/-! ## What a read uses up -/

namespace Input

/-- How many of the items are sure to end a read: the newlines and the marks of the end of the
stream. -/
def lineEnds (items : List Item) : Nat := items.count (.byte newline) + items.count .endMark

theorem lineEnds_append (first second : List Item) :
    lineEnds (first ++ second) = lineEnds first + lineEnds second := by
  unfold lineEnds
  rw [List.count_append, List.count_append]
  omega

theorem length_data (items : List Item) : (data items).length = dataSize items := by
  unfold data dataSize
  rw [List.length_filterMap_eq_countP]
  refine List.countP_congr fun item _ => ?_
  cases item <;> simp [Item.byte?, Item.isByte]

variable {items : List Item} {text : String}

/-- What ends a line is a newline, and for a line with bytes also an end of the stream. -/
theorem nextEnd?_of_line (h : (readLine items).reading = .line text) :
    nextEnd? items = some (.byte newline) ∨
      nextLine items ≠ [] ∧ (nextEnd? items = some .endMark ∨ nextEnd? items = none) := by
  have hanswer : (readLine items).reading
      = (answer (nextLine items) (nextEnd? items)).map Utf8.decode :=
    congrArg (Reading.map Utf8.decode) (cutFrom_stretch [] [] items).reading
  rw [hanswer] at h
  have hsome : nextLine items = [] → answer (nextLine items) (nextEnd? items) ≠ .endOfInput := by
    intro _ hnone
    rw [hnone] at h
    cases h
  cases hend : nextEnd? items with
  | none =>
    refine Or.inr ⟨fun hnil => hsome hnil ?_, Or.inr rfl⟩
    rw [hend, answer, if_pos hnil]
  | some item =>
    cases item with
    | byte b => exact Or.inl (by rw [eq_newline_of_nextEnd? hend])
    | endMark =>
      refine Or.inr ⟨fun hnil => hsome hnil ?_, Or.inl rfl⟩
      rw [hend, answer, if_pos hnil]
    | fault f =>
      rw [hend] at h
      cases h

/-- A read that gives a line takes a byte of data. -/
theorem dataSize_taken_pos (h : (readLine items).reading = .line text) :
    0 < dataSize (readLine items).taken := by
  rw [← length_data, data_readLine_taken, List.length_append]
  rcases nextEnd?_of_line h with hend | ⟨hne, -⟩
  · have hone : (data (nextEnd? items).toList).length = 1 := by rw [hend]; rfl
    omega
  · have hpos := List.length_pos_iff.2 hne
    omega

theorem lineEnds_taken_pos {item : Item} (hend : nextEnd? items = some item)
    (hitem : item = .byte newline ∨ item = .endMark) : 0 < lineEnds (readLine items).taken := by
  have hlast := (cutFrom_stretch [] [] items).last item hend
  have hmem : item ∈ (readLine items).taken := List.mem_of_getLast? hlast
  have hpos := List.count_pos_iff.2 hmem
  unfold lineEnds
  rcases hitem with rfl | rfl <;> omega

/-- A read that gives a line takes what ends it, or leaves nothing. -/
theorem rest_eq_nil_or_lineEnds_lt (h : (readLine items).reading = .line text) :
    (readLine items).rest = [] ∨ lineEnds (readLine items).rest < lineEnds items := by
  have hsplit : lineEnds items
      = lineEnds (readLine items).taken + lineEnds (readLine items).rest := by
    rw [← lineEnds_append, taken_append_rest]
  rcases nextEnd?_of_line h with hend | ⟨-, hend | hend⟩
  · have hpos := lineEnds_taken_pos hend (Or.inl rfl)
    exact Or.inr (by omega)
  · have hpos := lineEnds_taken_pos hend (Or.inr rfl)
    exact Or.inr (by omega)
  · exact Or.inl ((cutFrom_stretch [] [] items).rest hend)

end Input

namespace Shell

/-- A command prompts for nothing. -/
theorem Course.prompting_not_mem {settings : Settings} {args : List String} {events : Trace}
    {answer : Except CommandError Flow} (h : Course settings args events answer) :
    .prompting ∉ events := by
  cases h <;> simp [Action.lineWritten]

theorem Told.prompting_not_mem {settings : Settings} {args : List String} {events : Trace}
    {answer : Except Fault Flow} (h : Told settings args events answer) :
    .prompting ∉ events := by
  cases h with
  | done course => exact course.prompting_not_mem
  | reported course => simp [course.prompting_not_mem, Action.lineWritten]
  | unreported course => simp [course.prompting_not_mem]

end Shell

namespace Session

open Input (Item nthRead firstReads leftAfter)

variable {σ : Type} {sys : System σ} {settings : Settings} {input : List Item} {w : World σ}

/-! ## One turn -/

/-- A turn prompts once. -/
theorem Course.count_prompting {events : Trace} {verdict : Verdict}
    (h : Course settings events verdict) : events.count .prompting = 1 := by
  have hgreeting : (greeting settings).count .prompting = 1 := rfl
  have honce : ∀ later : Trace, .prompting ∉ later →
      (greeting settings ++ later).count .prompting = 1 := by
    intro later hlater
    rw [List.count_append, hgreeting, List.count_eq_zero.2 hlater]
  cases h with
  | ungreeted course => cases course <;> rfl
  | unread => exact honce _ (by simp)
  | farewell => exact honce _ (by simp)
  | farewellCut => exact honce _ (by simp)
  | untold _ told => exact honce _ (by simp [told.prompting_not_mem])
  | unflushed _ told => exact honce _ (by simp [told.prompting_not_mem])
  | obeyed _ told => exact honce _ (by simp [told.prompting_not_mem])

/-! ## A row of turns -/

/-- A session that starts with an input in a world takes these turns, of which only the last does
not go on, and ends so. -/
inductive Turns (sys : System σ) (settings : Settings) :
    List Item → World σ → List (Turn σ) → Ending σ → Prop
  | last {input : List Item} {w : World σ} {answer : Except SessionError Unit}
    (halts : (turn sys settings input w).verdict = .ofFarewell answer) :
    Turns sys settings input w [turn sys settings input w]
      ((turn sys settings input w).ending answer)
  | next {input : List Item} {w : World σ} {later : List (Turn σ)} {ending : Ending σ}
    (goesOn : (turn sys settings input w).verdict = .goOn)
    (rest : Turns sys settings (turn sys settings input w).unread
      (turn sys settings input w).world later ending) :
    Turns sys settings input w (turn sys settings input w :: later)
      (ending.after (turn sys settings input w).trace)

/-- Every session ends, after finitely many turns. -/
theorem exists_turns (sys : System σ) (settings : Settings) (input : List Item) (w : World σ) :
    ∃ turns, Turns sys settings input w turns (run sys settings input w) := by
  induction input, w using run_induction sys settings with
  | last input w hlast =>
    cases hv : (turn sys settings input w).verdict with
    | goOn => exact absurd hv hlast
    | ended =>
      rw [run_of_ended hv]
      exact ⟨_, .last hv⟩
    | failed e =>
      rw [run_of_failed hv]
      exact ⟨_, .last hv⟩
  | next input w hgo ih =>
    obtain ⟨later, hlater⟩ := ih
    rw [run_of_goOn hgo]
    exact ⟨_, .next hgo hlater⟩

namespace Turns

variable {turns : List (Turn σ)} {ending : Ending σ}

/-- The events of a session are those of its turns. -/
theorem trace_eq (h : Turns sys settings input w turns ending) :
    ending.trace = turns.flatMap Turn.trace := by
  induction h with
  | last => exact (List.append_nil _).symm
  | next _ _ ih => rw [List.flatMap_cons, ← ih, Ending.after]

/-- A session prompts once a turn. -/
theorem count_prompting (h : Turns sys settings input w turns ending) :
    ending.trace.count .prompting = turns.length := by
  induction h with
  | last => exact (turn_course sys settings _ _).count_prompting
  | next _ _ ih =>
    rw [Ending.after, List.count_append, (turn_course sys settings _ _).count_prompting, ih,
      List.length_cons, Nat.add_comm]

/-- Where nothing is left, the next turn is the last. -/
theorem length_of_nil (h : Turns sys settings [] w turns ending) : turns.length = 1 := by
  cases h with
  | last => rfl
  | next goesOn => exact absurd (length_unread_lt goesOn) (Nat.not_lt_zero _)

/-- All turns but the last two have read up to a newline or a mark of the end of the stream. -/
theorem length_le (h : Turns sys settings input w turns ending) :
    turns.length ≤ Input.lineEnds input + 2 := by
  induction h with
  | last => exact Nat.le_add_left 1 _
  | next goesOn rest ih =>
    obtain ⟨line, hline⟩ := exists_line_of_goOn goesOn
    rw [unread_of_goOn goesOn] at rest ih
    rw [List.length_cons]
    rcases Input.rest_eq_nil_or_lineEnds_lt hline with hnil | hlt
    · rw [hnil] at rest
      have hone := rest.length_of_nil
      omega
    · omega

/-- All turns but the last have read a line. -/
theorem exists_line (h : Turns sys settings input w turns ending) :
    ∀ n, n + 1 < turns.length → ∃ line, (nthRead input n).reading = .line line := by
  induction h with
  | last =>
    intro n hn
    exact absurd hn (by simp)
  | next goesOn rest ih =>
    intro n hn
    rw [unread_of_goOn goesOn] at ih
    cases n with
    | zero => exact exists_line_of_goOn goesOn
    | succ n => exact ih n (Nat.lt_of_succ_lt_succ hn)

/-- The turns take the reads of the input one after the other, and the last may do without. -/
structure Account (sys : System σ) (settings : Settings) (input : List Item)
    (turns : List (Turn σ)) (ending : Ending σ) (count : Nat) : Prop where
  most : count ≤ turns.length
  least : turns.length ≤ count + 1
  courses : ∀ n t, turns[n]? = some t → n < count →
    ∃ w', t = .afterRead sys settings (nthRead input n) w'
  ungreeted : ∀ t, turns[count]? = some t →
    ∃ e, Ungreeted settings t.trace e ∧ t.verdict = .failed e
  unread : ending.unread = leftAfter input count
  lines : ending.trace.lines = (firstReads input count).filterMap fun read => read.reading.line?

/-- A last turn reads once, or not at all. -/
theorem account_last {answer : Except SessionError Unit} :
    ∃ count, Account sys settings input [turn sys settings input w]
      ((turn sys settings input w).ending answer) count := by
  rcases turn_cases sys settings input w with ⟨events, e, w', hfail, ht⟩ | ⟨w', ht⟩
  · rw [ht]
    refine ⟨0, Nat.zero_le _, Nat.le_refl _, fun n t _ hn => absurd hn (Nat.not_lt_zero n),
      fun t hget => ?_, rfl, ?_⟩
    · cases hget
      exact ⟨e, hfail, rfl⟩
    · exact Trace.lines_eq_nil hfail.read_not_mem
  · rw [ht]
    refine ⟨1, Nat.le_refl _, Nat.le_succ _, fun n t hget hn => ?_, fun t hget => ?_, rfl, ?_⟩
    · obtain rfl : n = 0 := Nat.lt_one_iff.1 hn
      cases hget
      exact ⟨w', rfl⟩
    · cases hget
    · rw [Turn.ending, (Turn.commands_afterRead sys settings input w').1, Input.firstReads_succ]
      cases hr : (Input.readLine input).reading.line? <;> simp [hr, firstReads]

/-- A turn that goes on reads once, and then come the reads of the later ones. -/
theorem Account.next {later : List (Turn σ)} {count : Nat}
    (goesOn : (turn sys settings input w).verdict = .goOn)
    (h : Account sys settings (turn sys settings input w).unread later ending count) :
    Account sys settings input (turn sys settings input w :: later)
      (ending.after (turn sys settings input w).trace) (count + 1) := by
  rw [unread_of_goOn goesOn] at h
  obtain ⟨line, hline⟩ := exists_line_of_goOn goesOn
  obtain ⟨w', ht⟩ := exists_afterRead_of_goOn goesOn
  refine ⟨Nat.succ_le_succ h.most, Nat.succ_le_succ h.least, fun n t hget hn => ?_,
    fun t hget => h.ungreeted t hget, h.unread, ?_⟩
  · cases n with
    | zero =>
      obtain rfl := Option.some.inj hget
      exact ⟨w', ht⟩
    | succ n => exact h.courses n t hget (Nat.lt_of_succ_lt_succ hn)
  · rw [Ending.after, Trace.lines_append, h.lines, ht,
      (Turn.commands_afterRead sys settings input w').1, Input.firstReads_succ]
    simp [hline, Input.Reading.line?]

theorem exists_account (h : Turns sys settings input w turns ending) :
    ∃ count, Account sys settings input turns ending count := by
  induction h with
  | last => exact account_last
  | next goesOn _ ih =>
    obtain ⟨count, hcount⟩ := ih
    exact ⟨count + 1, hcount.next goesOn⟩

end Turns

/-- A session over a finite input takes finitely many turns, at most two more than the input has
newlines and marks of the end of the stream, and prompts once in each. A turn that goes on has
read a line, and with it a byte of data. The turns take the reads of the input one after the other,
each from where the one before has stopped, and the last may fail before it reads; after its read
a turn does what that read asks for, and nothing that is left of an earlier one. So the commands of
the session are the lines of these reads, in order, and what the reads took and what is unread is
the input. -/
theorem run_turns (sys : System σ) (settings : Settings) (input : List Item) (w : World σ) :
    ∃ turns count,
      let ending := run sys settings input w
      Turns sys settings input w turns ending ∧
        ending.trace = turns.flatMap Turn.trace ∧
        ending.trace.count .prompting = turns.length ∧
        turns.length ≤ input.count (.byte Input.newline) + input.count .endMark + 2 ∧
        (∀ n, n + 1 < turns.length → ∃ line, (nthRead input n).reading = .line line ∧
          0 < Input.dataSize (nthRead input n).taken) ∧
        count ≤ turns.length ∧ turns.length ≤ count + 1 ∧
        (∀ n t, turns[n]? = some t → n < count → ∃ w',
          t.trace = greeting settings ++ .read (nthRead input n).taken
            :: (afterRead sys settings (nthRead input n).reading w').trace) ∧
        (∀ t, turns[count]? = some t → ∃ e, Ungreeted settings t.trace e ∧ t.verdict = .failed e) ∧
        (firstReads input count).flatMap Input.Read.taken ++ ending.unread = input ∧
        ending.trace.lines
          = (firstReads input count).filterMap (fun read => read.reading.line?) ∧
        ending.trace.commands = proper (ending.trace.lines.map words) := by
  obtain ⟨turns, hturns⟩ := exists_turns sys settings input w
  obtain ⟨count, haccount⟩ := hturns.exists_account
  have hlines : ∀ n, n + 1 < turns.length → ∃ line, (nthRead input n).reading = .line line ∧
      0 < Input.dataSize (nthRead input n).taken := by
    intro n hn
    obtain ⟨line, hline⟩ := hturns.exists_line n hn
    exact ⟨line, hline, Input.dataSize_taken_pos hline⟩
  have hcourses : ∀ n t, turns[n]? = some t → n < count → ∃ w',
      t.trace = greeting settings ++ .read (nthRead input n).taken
        :: (afterRead sys settings (nthRead input n).reading w').trace := by
    intro n t hget hn
    obtain ⟨w', ht⟩ := haccount.courses n t hget hn
    exact ⟨w', congrArg Turn.trace ht⟩
  have hitems : (firstReads input count).flatMap Input.Read.taken
      ++ (run sys settings input w).unread = input := by
    rw [haccount.unread]
    exact Input.flatMap_taken_append_leftAfter input count
  exact ⟨turns, count, hturns, hturns.trace_eq, hturns.count_prompting, hturns.length_le, hlines,
    haccount.most, haccount.least, hcourses, haccount.ungreeted, hitems, haccount.lines,
    run_commands sys settings input w⟩

end Session
end CommandShell
