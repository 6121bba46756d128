import CommandShell.Proofs.Courses
import CommandShell.Proofs.Observation
import CommandShell.Proofs.Rebuilding
import CommandShell.Proofs.Reliable
import CommandShell.Rehearsal

/-!
# What help lists and what a command runs

The registry is read in two ways: help writes the names of all entries, and a command runs the
builtin of the first entry with its name. Both agree on which names are builtin
(`Shell.dispatch_routes_listed`): a name that help lists never comes to a launch, and any other
comes to nothing else.
-/

namespace CommandShell

/-! ## Entries -/

namespace Registry

/-- The entry of a name and a builtin command is the first one with this name. -/
def FirstEntry (r : Registry) (name : String) (builtin : Builtin) : Prop :=
  ∃ before after, r.entries = before ++ (name, builtin) :: after ∧
    ∀ entry ∈ before, entry.1 ≠ name

theorem lookup_eq_some_iff {r : Registry} {name : String} {builtin : Builtin} :
    r.lookup name = some builtin ↔ r.FirstEntry name builtin := by
  unfold lookup FirstEntry
  rw [Option.map_eq_some_iff]
  constructor
  · rintro ⟨⟨entry, found⟩, hfound, rfl⟩
    obtain ⟨hname, before, after, hentries, hbefore⟩ := List.find?_eq_some_iff_append.1 hfound
    obtain rfl : entry = name := eq_of_beq hname
    refine ⟨before, after, hentries, fun e he => ?_⟩
    simpa using hbefore e he
  · rintro ⟨before, after, hentries, hbefore⟩
    refine ⟨(name, builtin), List.find?_eq_some_iff_append.2 ⟨beq_self_eq_true name, before,
      after, hentries, fun e he => ?_⟩, rfl⟩
    simpa using hbefore e he

theorem lookup_eq_none_iff {r : Registry} {name : String} :
    r.lookup name = none ↔ name ∉ r.names := by
  unfold lookup names
  rw [Option.map_eq_none_iff, List.find?_eq_none, List.mem_map]
  simp only [beq_iff_eq, not_exists, not_and]

/-- A name that is listed has a first entry. -/
theorem exists_firstEntry {r : Registry} {name : String} (h : name ∈ r.names) :
    ∃ builtin, r.FirstEntry name builtin := by
  cases hlookup : r.lookup name with
  | none => exact absurd h (lookup_eq_none_iff.1 hlookup)
  | some builtin => exact ⟨builtin, lookup_eq_some_iff.1 hlookup⟩

end Registry

/-! ## The help text -/

namespace Builtin

/-- The names that a help text lists: those on its lines, without three lines at the beginning, one
at the end and two spaces before each name. -/
def listed (text : List UInt8) : List String :=
  let lines := (text.splitOn Input.newline).dropLast
  ((lines.drop 3).dropLast).map fun line => String.ofList ((Utf8.decode line).toList.drop 2)

theorem newline_not_mem_helpLines {registry : Registry}
    (h : ∀ name ∈ registry.names, '\n' ∉ name.toList) :
    ∀ line ∈ helpLines registry, '\n' ∉ line.toList := by
  have hbanner : ∀ line ∈ ["KPSH", "Type program names and arguments, and hit enter.",
      "The following are built in:"], '\n' ∉ line.toList := by
    simp only [List.forall_mem_cons]
    exact ⟨Input.newline_not_mem_ofList (by decide), Input.newline_not_mem_ofList (by decide),
      Input.newline_not_mem_ofList (by decide), nofun⟩
  have hlast : '\n' ∉ "Use the man command for information on other programs.".toList :=
    Input.newline_not_mem_ofList (by decide)
  have hindent : '\n' ∉ "  ".toList := Input.newline_not_mem_ofList (by decide)
  intro line hline
  unfold helpLines at hline
  rw [List.mem_append, List.mem_append, List.mem_map, List.mem_singleton] at hline
  rcases hline with (hmem | ⟨name, hname, rfl⟩) | rfl
  · exact hbanner line hmem
  · rw [String.toList_append, List.mem_append, not_or]
    exact ⟨hindent, h name hname⟩
  · exact hlast

/-- The names in a help text are those of the registry. -/
theorem listed_written {registry : Registry}
    (h : ∀ name ∈ registry.names, '\n' ∉ name.toList) :
    listed (Input.written (helpLines registry)) = registry.names := by
  have hindent : ∀ name : String,
      String.ofList ((Utf8.decode (Utf8.encode ("  " ++ name))).toList.drop 2) = name := by
    intro name
    rw [Utf8.decode_encode, String.toList_append]
    exact String.ofList_toList
  unfold listed
  simp only [Input.splitOn_written (newline_not_mem_helpLines h), List.dropLast_concat]
  show (((registry.names.map ("  " ++ ·) ++ [_]).map Utf8.encode).dropLast).map _ = _
  rw [List.map_append, List.map_singleton, List.dropLast_concat, List.map_map, List.map_map]
  exact List.map_id'' hindent registry.names

/-- The bytes of some lines on standard output. -/
theorem written_lines (lines : List String) :
    Trace.written .out (lines.map (Action.lineWritten .out)) = Input.written lines := by
  unfold Trace.written Input.written
  rw [List.flatMap_map]
  rfl

/-- A builtin command does not depend on how programs are launched. -/
theorem run_set_launch {σ : Type} (sys : System σ) (launch : List String → σ → Launch σ)
    (registry : Registry) (args : List String) (builtin : Builtin) :
    builtin.run { sys with launch } registry args = builtin.run sys registry args := by
  cases builtin with
  | cd => rcases args with _ | ⟨name, _ | ⟨path, others⟩⟩ <;> rfl
  | help => rfl
  | exit => rfl

end Builtin

/-! ## Routes -/

namespace Shell

variable {σ : Type} {settings : Settings} {name : String} {others : List String}

theorem launches_entered (args : List String) (rest : Trace) :
    Trace.launches (.entered args :: rest) = rest.launches := rfl

theorem launches_lines (lines : List String) (rest : Trace) :
    Trace.launches (lines.map (Action.lineWritten .out) ++ rest) = rest.launches := by
  induction lines with
  | nil => rfl
  | cons line lines ih => exact ih

/-- A builtin command launches nothing. -/
theorem Course.launches_eq_nil {events : Trace} {answer : Except CommandError Flow}
    {builtin : Builtin} (h : Course settings (name :: others) events answer)
    (hlookup : settings.registry.lookup name = some builtin) : events.launches = [] := by
  have hfound : settings.registry.lookup name ≠ none := by
    rw [hlookup]
    exact Option.some_ne_none builtin
  cases h with
  | exit found => rfl
  | cd found => rfl
  | cdFailed found => rfl
  | help found =>
    have hlines := launches_lines (Builtin.helpLines settings.registry) []
    rw [List.append_nil] at hlines
    rw [launches_entered, hlines]
    rfl
  | helpCut found lines part =>
    rw [launches_entered, launches_lines]
    rfl
  | unflushed missing => exact absurd missing hfound
  | launched missing => exact absurd missing hfound
  | launchFailed missing => exact absurd missing hfound

/-- Only the builtin `exit` ends a session. -/
theorem Course.lookup_of_stop {events : Trace}
    (h : Course settings (name :: others) events (.ok .stop)) :
    settings.registry.lookup name = some .exit := by
  cases h with
  | exit found => exact found

/-- A help command of which no write is refused writes the help text, and does nothing else. -/
theorem Course.of_help {events : Trace} {answer : Except CommandError Flow}
    (h : Course settings (name :: others) events answer)
    (hlookup : settings.registry.lookup name = some .help)
    (hwrites : ∀ f, .refused .out f ∉ events) :
    answer = .ok .goOn ∧
      events = .entered (name :: others)
        :: (Builtin.helpLines settings.registry).map (Action.lineWritten .out) := by
  cases h with
  | exit found => rw [found] at hlookup; cases hlookup
  | cd found => rw [found] at hlookup; cases hlookup
  | cdFailed found => rw [found] at hlookup; cases hlookup
  | help found => exact ⟨rfl, rfl⟩
  | @helpCut _ _ done todo line taken f found lines part => exact absurd (by simp) (hwrites f)
  | unflushed missing => rw [missing] at hlookup; cases hlookup
  | launched missing => rw [missing] at hlookup; cases hlookup
  | launchFailed missing => rw [missing] at hlookup; cases hlookup

/-- Where the streams work, no write of a help command is refused. -/
theorem refused_not_mem_of_reliable (sys : System σ) (others : List String)
    (h : settings.registry.lookup name = some .help) {w : World σ} (hw : w.Reliable) (f : Fault) :
    .refused .out f ∉ (dispatch sys settings (name :: others) w).trace := by
  have hlines : (Action.writeLines .out (Builtin.helpLines settings.registry) w).answer = .ok () :=
    (Action.does_writeLines hw .out (Builtin.helpLines settings.registry)).answers
  rcases Action.writeLines_cases .out (Builtin.helpLines settings.registry) w with
    ⟨w', hwritten⟩ | ⟨done, line, todo, taken, g, w', -, -, hwritten⟩
  · have hran : Builtin.runHelp settings.registry w = _ :=
      Action.bind_of_eq_ok (Action.mapError_of_eq_ok hwritten)
    rw [dispatch_builtin h, Builtin.run, hran]
    simp [Action.lineWritten, Action.pure]
  · rw [hwritten] at hlines
    cases hlines

/-- Where standard output cannot be flushed, nothing is launched. -/
theorem dispatch_of_unflushed {sys : System σ} {w : World σ} {f : Fault}
    (h : settings.registry.lookup name = none)
    (hflush : (Action.flush .out w).answer = .error f) :
    dispatch sys settings (name :: others) w =
      ⟨[.entered (name :: others), .flushed .out (some f)], .error (.stream f),
        (Action.flush .out w).world⟩ := by
  have hlaunch : launch sys (name :: others) w
      = ⟨[.flushed .out (some f)], .error (.stream f), (Action.flush .out w).world⟩ :=
    Action.bind_of_eq_error (Action.mapError_of_eq_error (Action.flush_of_error hflush))
  rw [dispatch_launch h, hlaunch]

/-- Once standard output is flushed, the whole list of arguments is launched. -/
theorem dispatch_of_flushed {sys : System σ} {w : World σ}
    (h : settings.registry.lookup name = none)
    (hflush : (Action.flush .out w).answer = .ok ()) :
    let flushed := (Action.flush .out w).world
    let launched := sys.launch (name :: others) flushed.system
    dispatch sys settings (name :: others) w =
      ⟨[.entered (name :: others), .flushed .out none,
          .launched (name :: others) (sys.workingDirectory flushed.system) launched.output],
        launched.answer.map fun _ => .goOn, { flushed with system := launched.after }⟩ := by
  intro flushed launched
  have hdone : Action.launch sys (name :: others) flushed
      = ⟨[.launched (name :: others) (sys.workingDirectory flushed.system) launched.output],
        launched.answer, { flushed with system := launched.after }⟩ := rfl
  have hlaunch : launch sys (name :: others) w = _ :=
    Action.bind_of_eq_ok (Action.mapError_of_eq_ok (Action.flush_of_ok hflush))
  rw [dispatch_launch h, hlaunch, Action.bind_eq]
  cases hanswer : launched.answer with
  | ok u =>
    rw [hanswer] at hdone
    rw [Action.bind_of_eq_ok hdone]
    rfl
  | error e =>
    rw [hanswer] at hdone
    rw [Action.bind_of_eq_error hdone]
    rfl

/-- The names that help lists are those of builtin commands. A help command of which no write is
refused writes three lines, a line for each name in the order of the registry, and a last line, from
which the names can be read again. A command whose name is listed runs the builtin of the first
entry with this name on all its arguments and launches nothing; with any other name it flushes
standard output and, if that works, launches all its arguments once. A session is ended by the
commands whose first entry is `exit`, and by no other, and an empty list of arguments is no
command. -/
theorem dispatch_routes_listed (sys : System σ) (settings : Settings)
    (hnames : ∀ name ∈ settings.registry.names, '\n' ∉ name.toList) (name : String)
    (others : List String) (w : World σ) :
    let registry := settings.registry
    let args := name :: others
    let done := dispatch sys settings args w
    (registry.FirstEntry name .help → (∀ f, .refused .out f ∉ done.trace) →
      done.answer = .ok .goOn ∧
      done.trace = .entered args :: (["KPSH",
          "Type program names and arguments, and hit enter.",
          "The following are built in:"] ++ registry.names.map ("  " ++ ·)
          ++ ["Use the man command for information on other programs."]).map
            (fun line => .wrote .out (Utf8.encode (line ++ "\n"))) ∧
      Builtin.listed (done.trace.written .out) = registry.names) ∧
    (name ∈ registry.names →
      ∃ builtin, registry.FirstEntry name builtin ∧
        (let ran := builtin.run sys registry args w
         done = ⟨.entered args :: ran.trace, ran.answer, ran.world⟩) ∧
        done.trace.launches = [] ∧
        ∀ launch, dispatch { sys with launch } settings args w = done) ∧
    (name ∉ registry.names →
      let flush := Action.flush .out w
      (∀ f, flush.answer = .error f →
        done = ⟨[.entered args, .flushed .out (some f)], .error (.stream f), flush.world⟩) ∧
      (flush.answer = .ok () →
        let launched := sys.launch args flush.world.system
        done = ⟨[.entered args, .flushed .out none,
            .launched args (sys.workingDirectory flush.world.system) launched.output],
          launched.answer.map fun _ => .goOn, { flush.world with system := launched.after }⟩)) ∧
    (done.answer = .ok .stop ↔ registry.FirstEntry name .exit) ∧
    dispatch sys settings [] w = ⟨[], .ok .goOn, w⟩ := by
  intro registry args done
  have hcourse : Course settings args done.trace done.answer := dispatch_course sys settings args w
  refine ⟨?_, ?_, ?_, ?_, rfl⟩
  · intro hfirst hwrites
    obtain ⟨hanswer, htrace⟩ := hcourse.of_help (Registry.lookup_eq_some_iff.2 hfirst) hwrites
    refine ⟨hanswer, htrace, ?_⟩
    have hwritten : done.trace.written .out = Input.written (Builtin.helpLines registry) := by
      rw [htrace]
      exact Builtin.written_lines (Builtin.helpLines registry)
    rw [hwritten]
    exact Builtin.listed_written hnames
  · intro hlisted
    obtain ⟨builtin, hfirst⟩ := Registry.exists_firstEntry hlisted
    have hlookup : registry.lookup name = some builtin := Registry.lookup_eq_some_iff.2 hfirst
    have hran : done = _ := dispatch_builtin hlookup w
    refine ⟨builtin, hfirst, hran, hcourse.launches_eq_nil hlookup, ?_⟩
    intro launch
    rw [hran, dispatch_builtin hlookup, Builtin.run_set_launch]
  · intro hunlisted
    have hlookup : registry.lookup name = none := Registry.lookup_eq_none_iff.2 hunlisted
    exact ⟨fun f hflush => dispatch_of_unflushed hlookup hflush, dispatch_of_flushed hlookup⟩
  · rw [← Registry.lookup_eq_some_iff]
    constructor
    · intro hstop
      rw [hstop] at hcourse
      exact hcourse.lookup_of_stop
    · intro hexit
      have hran : done = _ := dispatch_builtin hexit w
      rw [hran]
      rfl

/-- A shell in which a name has two entries and another begins like it. -/
def shadowed : Settings where
  registry := ⟨[("bye", .exit), ("usage", .help), ("bye", .cd), ("by", .cd)]⟩

theorem dispatch_routes_listed_shadowed :
    let w : World Rehearsal := ⟨{}, {}, (⟨⟨[]⟩, []⟩, [])⟩
    (∀ name ∈ shadowed.registry.names, '\n' ∉ name.toList) ∧
      Builtin.listed ((dispatch Rehearsal.system shadowed ["usage", "bye"] w).trace.written .out)
        = ["bye", "usage", "bye", "by"] ∧
      (dispatch Rehearsal.system shadowed ["bye", "now"] w).answer = .ok .stop ∧
      (dispatch Rehearsal.system shadowed ["byes", "now"] w).trace
        = [.entered ["byes", "now"], .flushed .out none, .launched ["byes", "now"] "/" []] := by
  intro w
  have hw : w.Reliable := ⟨Sink.reliable_default, Sink.reliable_default⟩
  have hnames : ∀ name ∈ shadowed.registry.names, '\n' ∉ name.toList := by
    simp [shadowed, Registry.names]
  have husage : shadowed.registry.FirstEntry "usage" .help :=
    ⟨[("bye", .exit)], [("bye", .cd), ("by", .cd)], rfl, by simp⟩
  have hbye : shadowed.registry.FirstEntry "bye" .exit := ⟨[], _, rfl, by simp⟩
  have hbyes : "byes" ∉ shadowed.registry.names := by simp [shadowed, Registry.names]
  have hwrites := refused_not_mem_of_reliable Rehearsal.system ["bye"]
    (Registry.lookup_eq_some_iff.2 husage) hw
  obtain ⟨hhelp, -⟩ :=
    dispatch_routes_listed Rehearsal.system shadowed hnames "usage" ["bye"] w
  obtain ⟨-, -, -, hstop, -⟩ :=
    dispatch_routes_listed Rehearsal.system shadowed hnames "bye" ["now"] w
  obtain ⟨-, -, hlaunch, -⟩ :=
    dispatch_routes_listed Rehearsal.system shadowed hnames "byes" ["now"] w
  refine ⟨hnames, ?_, hstop.2 hbye, ?_⟩
  · exact (hhelp husage hwrites).2.2
  · rw [(hlaunch hbyes).2 rfl]
    rfl

end Shell
end CommandShell
