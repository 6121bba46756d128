import CommandShell.Proofs.Composition
import CommandShell.Proofs.Compositional

/-!
# The commands of a session

The commands that a session runs are in its trace, and so are the lines that it reads. A line is
one command, or none if it is blank: the commands are the words of the lines, in order
(`Session.run_commands`).
-/

namespace CommandShell

/-- The line that was read, if it was one. -/
def Input.Reading.line? {α : Type} : Input.Reading α → Option α
  | .line content => some content
  | .endOfInput => none
  | .fault _ => none

namespace Trace

/-- The commands that were run. -/
def commands (trace : Trace) : List (List String) :=
  trace.filterMap fun
    | .entered args => some args
    | _ => none

/-- The lines that were read. -/
def lines (trace : Trace) : List String :=
  trace.filterMap fun
    | .read items => (Input.readLine items).reading.line?
    | _ => none

theorem commands_append (first second : Trace) :
    (first ++ second).commands = first.commands ++ second.commands := by
  rw [commands, List.filterMap_append]
  rfl

theorem lines_append (first second : Trace) :
    (first ++ second).lines = first.lines ++ second.lines := by
  rw [lines, List.filterMap_append]
  rfl

theorem lines_read (items : List Input.Item) :
    Trace.lines [.read items] = (Input.readLine items).reading.line?.toList := by
  cases h : (Input.readLine items).reading.line? <;> simp [lines, h]

theorem commands_eq_nil {trace : Trace} (h : ∀ args, .entered args ∉ trace) :
    trace.commands = [] := by
  refine List.filterMap_eq_nil_iff.2 fun e he => ?_
  cases e with
  | entered args => exact absurd he (h args)
  | _ => rfl

theorem lines_eq_nil {trace : Trace} (h : ∀ items, .read items ∉ trace) : trace.lines = [] := by
  refine List.filterMap_eq_nil_iff.2 fun e he => ?_
  cases e with
  | read items => exact absurd he (h items)
  | _ => rfl

end Trace

/-- The commands among some lists of arguments: an empty list is none. -/
def proper (args : List (List String)) : List (List String) := args.filter (· ≠ [])

theorem proper_append (first second : List (List String)) :
    proper (first ++ second) = proper first ++ proper second := List.filter_append first second

namespace Shell

/-- A list of arguments is run as one command, or none if it is empty. -/
theorem Course.commands {settings : Settings} {args : List String} {events : Trace}
    {answer : Except CommandError Flow} (h : Course settings args events answer) :
    events.commands = proper [args] := by
  cases h with
  | help found =>
    exact congrArg (List.cons _) (Trace.commands_eq_nil (by simp [Action.lineWritten]))
  | helpCut found lines part =>
    exact congrArg (List.cons _) (Trace.commands_eq_nil (by simp [Action.lineWritten]))
  | _ => rfl

theorem Told.commands {settings : Settings} {args : List String} {events : Trace}
    {answer : Except Fault Flow} (h : Told settings args events answer) :
    events.commands = proper [args] := by
  cases h with
  | done course => exact course.commands
  | reported course => rw [Trace.commands_append, course.commands]; exact List.append_nil _
  | unreported course => rw [Trace.commands_append, course.commands]; exact List.append_nil _

end Shell

namespace Session

open Input (Item)

variable {σ : Type}

/-! ## Turns -/

/-- Before its read a turn runs no command. -/
theorem commands_greet (settings : Settings) (w : World σ) :
    (greet settings w).trace.commands = [] := by
  rcases greet_cases settings w with ⟨w', hg⟩ | ⟨events, e, w', hcourse, hg⟩
  · rw [hg]
    rfl
  · rw [hg]
    cases hcourse <;> rfl

/-- The command on a line is that of its words. -/
theorem commands_obey (sys : System σ) (settings : Settings) (line : String) (w : World σ) :
    (obey sys settings line w).trace.commands = proper [words line] := by
  rcases obey_cases sys settings line w with
    ⟨events, f, w', ht, ho⟩ | ⟨events, flow, ht, ⟨f, w', ho⟩ | ⟨w', ho⟩⟩
  · rw [ho, ht.commands]
  · rw [ho, Trace.commands_append, ht.commands]
    exact List.append_nil _
  · rw [ho, Trace.commands_append, ht.commands]
    exact List.append_nil _

/-- After its read a turn reads nothing more. -/
theorem afterRead_read_not_mem (sys : System σ) (settings : Settings)
    (reading : Input.Reading String) (w : World σ) (items : List Item) :
    .read items ∉ (afterRead sys settings reading w).trace := by
  cases reading with
  | line text => exact obey_read_not_mem sys settings text w items
  | endOfInput =>
    rcases farewell_cases w with ⟨w', hw⟩ | ⟨taken, f, w', -, hw⟩
    · rw [afterRead, Action.bind_of_eq_ok hw]
      simp [Action.pure]
    · rw [afterRead, Action.bind_of_eq_error hw]
      simp
  | fault f => exact List.not_mem_nil

/-- What a turn does after its read. -/
theorem commands_afterRead (sys : System σ) (settings : Settings)
    (reading : Input.Reading String) (w : World σ) :
    (afterRead sys settings reading w).trace.lines = [] ∧
      (afterRead sys settings reading w).trace.commands
        = proper (reading.line?.toList.map words) := by
  refine ⟨Trace.lines_eq_nil (afterRead_read_not_mem sys settings reading w), ?_⟩
  cases reading with
  | line text => exact commands_obey sys settings text w
  | endOfInput =>
    rcases farewell_cases w with ⟨w', hw⟩ | ⟨taken, f, w', -, hw⟩
    · rw [afterRead, Action.bind_of_eq_ok hw]
      rfl
    · rw [afterRead, Action.bind_of_eq_error hw]
      rfl
  | fault f => rfl

/-- The line of a turn that was greeted is the one that it reads, and its command is that of the
words of this line. -/
theorem Turn.commands_afterRead (sys : System σ) (settings : Settings) (input : List Item)
    (w : World σ) :
    let t := Turn.afterRead sys settings (Input.readLine input) w
    t.trace.lines = (Input.readLine input).reading.line?.toList ∧
      t.trace.commands = proper (t.trace.lines.map words) := by
  intro t
  have hsplit : t.trace = greeting settings ++ ([.read (Input.readLine input).taken]
      ++ (Session.afterRead sys settings (Input.readLine input).reading w).trace) := rfl
  have hgreeting : (greeting settings).lines = [] ∧ (greeting settings).commands = [] :=
    ⟨rfl, rfl⟩
  have hread : Trace.commands [.read (Input.readLine input).taken] = [] := rfl
  obtain ⟨hlater, hran⟩ :=
    Session.commands_afterRead sys settings (Input.readLine input).reading w
  have hlines : t.trace.lines = (Input.readLine input).reading.line?.toList := by
    rw [hsplit, Trace.lines_append, Trace.lines_append, hgreeting.1, hlater, Trace.lines_read,
      Input.reading_readLine_taken, List.append_nil, List.nil_append]
  refine ⟨hlines, ?_⟩
  rw [hlines, hsplit, Trace.commands_append, Trace.commands_append, hgreeting.2, hread, hran,
    List.nil_append, List.nil_append]

theorem commands_turn (sys : System σ) (settings : Settings) (input : List Item) (w : World σ) :
    (turn sys settings input w).trace.commands
      = proper ((turn sys settings input w).trace.lines.map words) := by
  rcases turn_cases sys settings input w with ⟨events, e, w', hfail, ht⟩ | ⟨w', ht⟩
  · rw [ht]
    cases hfail <;> rfl
  · rw [ht]
    exact (Turn.commands_afterRead sys settings input w').2

/-- The commands of a session are the words of the lines that it reads. -/
theorem run_commands (sys : System σ) (settings : Settings) (input : List Item) (w : World σ) :
    (run sys settings input w).trace.commands
      = proper ((run sys settings input w).trace.lines.map words) := by
  induction input, w using run_induction sys settings with
  | last input w hgo =>
    obtain ⟨answer, hrun⟩ := run_of_not_goOn hgo
    rw [hrun]
    exact commands_turn sys settings input w
  | next input w hgo ih =>
    rw [run_of_goOn hgo]
    simp only [Ending.after, Trace.commands_append, Trace.lines_append, List.map_append,
      proper_append, ih, commands_turn]

end Session
end CommandShell
