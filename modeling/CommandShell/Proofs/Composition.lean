import CommandShell.Proofs.Courses
import CommandShell.Rehearsal

/-!
# Sessions on inputs one after the other

A session reads no further than the line it runs. On an input of whole lines it therefore does the
same whatever comes after them, until it asks for more than they hold; and there it is a session on
what comes after them, in the world that the lines have left (`run_append`). The reads tell
whether it came so far: only a read beyond the last item takes nothing.
-/

namespace CommandShell

namespace Shell

/-- A command reads nothing. -/
theorem Course.read_not_mem {settings : Settings} {args : List String} {events : Trace}
    {answer : Except CommandError Flow} (h : Course settings args events answer)
    (items : List Input.Item) : .read items ∉ events := by
  cases h <;> simp [Action.lineWritten]

theorem Told.read_not_mem {settings : Settings} {args : List String} {events : Trace}
    {answer : Except Fault Flow} (h : Told settings args events answer)
    (items : List Input.Item) : .read items ∉ events := by
  cases h with
  | done course => exact course.read_not_mem items
  | reported course => simp [course.read_not_mem items, Action.lineWritten]
  | unreported course => simp [course.read_not_mem items]

end Shell

namespace Session

open Input (Item Complete)

variable {σ : Type} {sys : System σ} {settings : Settings} {input : List Item} {w : World σ}

/-! ## Reads beyond the input -/

theorem Ungreeted.read_not_mem {events : Trace} {e : SessionError}
    (h : Ungreeted settings events e) (items : List Item) : .read items ∉ events := by
  cases h <;> simp

theorem obey_read_not_mem (sys : System σ) (settings : Settings) (line : String) (w : World σ)
    (items : List Item) : .read items ∉ (obey sys settings line w).trace := by
  rcases obey_cases sys settings line w with
    ⟨events, f, w', ht, ho⟩ | ⟨events, flow, ht, ⟨f, w', ho⟩ | ⟨w', ho⟩⟩
  · rw [ho]
    exact ht.read_not_mem items
  · rw [ho]
    simp [ht.read_not_mem items]
  · rw [ho]
    simp [ht.read_not_mem items]

/-- The second half of a turn reads nothing. -/
theorem Asked.finish_read_not_mem {asked : Asked σ} {items : List Item}
    (h : .read items ∉ asked.trace) : .read items ∉ (asked.finish sys settings).trace := by
  rw [Asked.finish]
  split
  · exact h
  · rw [List.mem_append, not_or]
    refine ⟨h, ?_⟩
    rcases farewell_cases asked.world with ⟨w', hw⟩ | ⟨taken, f, w', -, hw⟩
    · rw [hw]
      simp
    · rw [hw]
      simp
  · next line hreq =>
    rw [List.mem_append, not_or]
    exact ⟨h, obey_read_not_mem sys settings line asked.world items⟩

/-- A turn on an input that has items left reads some of them. -/
theorem read_nil_not_mem_turn (hne : input ≠ []) :
    .read [] ∉ (turn sys settings input w).trace := by
  apply Asked.finish_read_not_mem
  rcases greet_cases settings w with ⟨w', hg⟩ | ⟨events, e, w', hfail, hg⟩
  · rw [ask_of_greet_ok hg]
    have htaken := Input.taken_ne_nil hne
    simp [greeting, htaken.symm]
  · rw [ask_of_greet_error hg]
    exact hfail.read_not_mem []

/-- A turn that goes on has not read beyond its input. -/
theorem read_nil_not_mem_of_goOn (hgo : (turn sys settings input w).verdict = .goOn) :
    .read [] ∉ (turn sys settings input w).trace := by
  apply read_nil_not_mem_turn
  rintro rfl
  exact absurd (length_unread_lt hgo) (Nat.not_lt_zero _)

/-- A session that comes to a turn has not read beyond its input before. -/
theorem Reaches.read_nil_not_mem {before : Trace} {rest : List Item} {w' : World σ}
    (h : Reaches sys settings input w before rest w') : .read [] ∉ before := by
  induction h with
  | here => exact List.not_mem_nil
  | later hgo _ ih =>
    rw [List.mem_append, not_or]
    exact ⟨read_nil_not_mem_of_goOn hgo, ih⟩

/-! ## Inputs of whole lines -/

theorem ask_append (more : List Item) (hne : input ≠ []) (hc : Complete input) :
    ask settings (input ++ more) w
      = { ask settings input w with unread := (ask settings input w).unread ++ more } := by
  rcases greet_cases settings w with ⟨w', hg⟩ | ⟨events, e, w', -, hg⟩
  · rw [ask_of_greet_ok hg, ask_of_greet_ok hg, Input.readLine_append more hne hc]
  · rw [ask_of_greet_error hg, ask_of_greet_error hg]

theorem Asked.finish_set_unread (asked : Asked σ) (unread : List Item) :
    { asked with unread := unread }.finish sys settings
      = { asked.finish sys settings with unread := unread } := by
  rcases asked with ⟨trace, request, unread', w⟩
  cases request <;> rfl

/-- A turn on an input of whole lines takes the same course, whatever comes after them. -/
theorem turn_append (more : List Item) (hne : input ≠ []) (hc : Complete input) :
    turn sys settings (input ++ more) w
      = { turn sys settings input w with
          unread := (turn sys settings input w).unread ++ more } := by
  rw [turn, ask_append more hne hc, Asked.finish_set_unread, turn_unread]
  rfl

theorem complete_unread (hc : Complete input) :
    Complete (turn sys settings input w).unread := by
  rw [turn_unread]
  rcases greet_cases settings w with ⟨w', hg⟩ | ⟨events, e, w', -, hg⟩
  · rw [ask_of_greet_ok hg]
    exact Input.complete_rest hc
  · rw [ask_of_greet_error hg]
    exact hc

/-- The ending of a session that leaves more input unread. -/
def Ending.leaving (ending : Ending σ) (more : List Item) : Ending σ :=
  { ending with unread := ending.unread ++ more }

/-- A last turn on an input of whole lines stays the last one, whatever comes after them. -/
theorem run_append_of_last (more : List Item) (hne : input ≠ []) (hc : Complete input)
    (hlast : (turn sys settings input w).verdict ≠ .goOn) :
    run sys settings (input ++ more) w = (run sys settings input w).leaving more := by
  have hturn : turn sys settings (input ++ more) w = _ := turn_append more hne hc
  cases hv : (turn sys settings input w).verdict with
  | goOn => exact absurd hv hlast
  | ended =>
    have hv' : (turn sys settings (input ++ more) w).verdict = .ended := by rw [hturn, ← hv]
    rw [run_of_ended hv', run_of_ended hv, hturn]
    rfl
  | failed e =>
    have hv' : (turn sys settings (input ++ more) w).verdict = .failed e := by rw [hturn, ← hv]
    rw [run_of_failed hv', run_of_failed hv, hturn]
    rfl

theorem run_append_of_goOn (more : List Item) (hne : input ≠ []) (hc : Complete input)
    (hgo : (turn sys settings input w).verdict = .goOn) :
    run sys settings (input ++ more) w
      = (run sys settings ((turn sys settings input w).unread ++ more)
          (turn sys settings input w).world).after (turn sys settings input w).trace := by
  have hturn : turn sys settings (input ++ more) w = _ := turn_append more hne hc
  have hgo' : (turn sys settings (input ++ more) w).verdict = .goOn := by rw [hturn, ← hgo]
  rw [run_of_goOn hgo', hturn]

/-- Where a greeting fails, nothing of the input matters. -/
theorem run_of_ungreeted {events : Trace} {e : SessionError} {w' : World σ}
    (h : greet settings w = ⟨events, .error e, w'⟩) (input : List Item) :
    run sys settings input w = ⟨events, .error e, input, w'⟩ := by
  have hturn : turn sys settings input w = ⟨events, .failed e, input, w'⟩ := by
    rw [turn, ask_of_greet_error h]
    rfl
  rw [run_of_failed (e := e) (by rw [hturn]), hturn]
  rfl

/-- At the end of its input, a session that is greeted reads beyond it. -/
theorem read_nil_mem_of_greeted {events : Trace} {w' : World σ}
    (h : greet settings w = ⟨events, .ok (), w'⟩) :
    .read [] ∈ (run sys settings [] w).trace := by
  have hlast : (turn sys settings [] w).verdict ≠ .goOn := fun hgo =>
    absurd (length_unread_lt hgo) (Nat.not_lt_zero _)
  obtain ⟨answer, hrun⟩ := run_of_not_goOn hlast
  rw [hrun, Turn.ending, turn, ask_of_greet_ok h]
  simp [Asked.finish, Request.ofReading, Input.readLine, Input.cutLine, Input.cutFrom,
    Input.atEnd, Input.Reading.map]

/-- What becomes of a session on whole lines and what comes after them. -/
def Composes (sys : System σ) (settings : Settings) (input : List Item) (w : World σ) : Prop :=
  (.read [] ∉ (run sys settings input w).trace → ∀ more,
    run sys settings (input ++ more) w = (run sys settings input w).leaving more) ∧
  (.read [] ∈ (run sys settings input w).trace → ∃ before w',
    Reaches sys settings input w before [] w' ∧ ∀ more,
      run sys settings (input ++ more) w = (run sys settings more w').after before)

theorem composes_of_last (hc : Complete input)
    (hlast : (turn sys settings input w).verdict ≠ .goOn) : Composes sys settings input w := by
  by_cases hne : input = []
  · subst hne
    -- nothing is left of the lines: it is the greeting that decides whether more is asked for
    rcases greet_cases settings w with ⟨w', hg⟩ | ⟨events, e, w', hfail, hg⟩
    · exact ⟨fun h => absurd (read_nil_mem_of_greeted hg) h,
        fun _ => ⟨[], w, .here [] w, fun _ => rfl⟩⟩
    · rw [Composes, run_of_ungreeted hg]
      refine ⟨fun _ more => ?_, fun h => absurd h (hfail.read_not_mem [])⟩
      rw [List.nil_append, run_of_ungreeted hg]
      rfl
  · refine ⟨fun _ more => run_append_of_last more hne hc hlast, fun h => ?_⟩
    obtain ⟨answer, hrun⟩ := run_of_not_goOn hlast
    rw [hrun] at h
    exact absurd h (read_nil_not_mem_turn hne)

theorem composes_of_goOn (hc : Complete input)
    (hgo : (turn sys settings input w).verdict = .goOn)
    (ih : Composes sys settings (turn sys settings input w).unread
      (turn sys settings input w).world) : Composes sys settings input w := by
  have hne : input ≠ [] := by
    rintro rfl
    exact absurd (length_unread_lt hgo) (Nat.not_lt_zero _)
  -- whether the session reads beyond its input is decided after this turn
  have hmem : .read [] ∈ (run sys settings input w).trace ↔
      .read [] ∈ (run sys settings (turn sys settings input w).unread
        (turn sys settings input w).world).trace := by
    rw [run_of_goOn hgo, Ending.after, List.mem_append]
    exact or_iff_right (read_nil_not_mem_of_goOn hgo)
  refine ⟨fun h more => ?_, fun h => ?_⟩
  · rw [hmem] at h
    rw [run_append_of_goOn more hne hc hgo, ih.1 h more, run_of_goOn hgo]
    rfl
  · rw [hmem] at h
    obtain ⟨before, w', hreach, hrun⟩ := ih.2 h
    refine ⟨_, w', .later hgo hreach, fun more => ?_⟩
    rw [run_append_of_goOn more hne hc hgo, hrun more, Ending.after_after]

theorem composes (sys : System σ) (settings : Settings) (input : List Item) (w : World σ)
    (hc : Complete input) : Composes sys settings input w := by
  induction input, w using run_induction sys settings with
  | last input w hlast => exact composes_of_last hc hlast
  | next input w hgo ih => exact composes_of_goOn hc hgo (ih (complete_unread hc))

/-- A session that ends on whole lines, before it reads beyond them, does the same whatever comes
after them, and leaves that unread. If it reads beyond them, then on the lines and what comes after
them it comes to the end of the lines, and from there on is the session on what comes after them,
in the world in which the lines have left it. In particular nothing that comes after a command
that ends the session has any effect. -/
theorem run_append (sys : System σ) (settings : Settings) (input : List Item) (w : World σ)
    (hc : Complete input) :
    (.read [] ∉ (run sys settings input w).trace → ∀ more,
      run sys settings (input ++ more) w
        = { run sys settings input w with
            unread := (run sys settings input w).unread ++ more }) ∧
    (.read [] ∈ (run sys settings input w).trace → ∃ before w',
      Reaches sys settings input w before [] w' ∧ ∀ more,
        run sys settings (input ++ more) w
          = { run sys settings more w' with
              trace := before ++ (run sys settings more w').trace }) ∧
    ∀ before rest w' line,
      Reaches sys settings input w before rest w' →
      (ask settings rest w').request = .command line →
      (obey sys settings line (ask settings rest w').world).answer = .ok .stop →
      ∀ more, run sys settings (input ++ more) w
        = { run sys settings input w with
            unread := (run sys settings input w).unread ++ more } := by
  obtain ⟨hends, hcontinues⟩ := composes sys settings input w hc
  refine ⟨hends, hcontinues, ?_⟩
  intro before rest w' line hreach hask hstop
  -- the turns before the command read no more than the lines, and its own turn reads one of them
  apply hends
  have hne : rest ≠ [] := by
    rintro rfl
    exact absurd (ask_length_unread_lt hask) (Nat.not_lt_zero _)
  have hended : (turn sys settings rest w').verdict = .ended := by
    rw [turn_of_command sys hask, hstop]
    rfl
  rw [hreach.run_eq, run_of_ended hended, Ending.after, List.mem_append, not_or]
  exact ⟨hreach.read_nil_not_mem, read_nil_not_mem_turn hne⟩

/-- Standard output has room for one prompt. -/
def narrowWorld : World Rehearsal := ⟨{ room := some 2 }, {}, (⟨⟨[]⟩, []⟩, [])⟩

theorem run_append_exit :
    Complete (Input.ofArrivals [.bytes (Utf8.encode "exit\n")]) ∧
      (run Rehearsal.system {}
          (Input.ofArrivals [.bytes (Utf8.encode "exit\n")]
            ++ Input.ofArrivals [.bytes (Utf8.encode "help\n")]) narrowWorld).unread
        = Input.ofArrivals [.bytes (Utf8.encode "help\n")] := by
  have hc : Complete (Input.ofArrivals [.bytes (Utf8.encode "exit\n")]) := by
    rw [Complete]
    decide
  have hread : .read [] ∉ (run Rehearsal.system {}
      (Input.ofArrivals [.bytes (Utf8.encode "exit\n")]) narrowWorld).trace := by decide +kernel
  obtain ⟨hends, -, -⟩ := run_append Rehearsal.system {} _ narrowWorld hc
  refine ⟨hc, ?_⟩
  rw [hends hread]
  decide +kernel

end Session
end CommandShell
