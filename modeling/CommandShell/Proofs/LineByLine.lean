import CommandShell.Proofs.Courses
import CommandShell.Proofs.Decoding
import CommandShell.Proofs.Reliable
import CommandShell.Rehearsal

/-!
# Sessions told line by line

What a session shows when its streams work: the input is cut into lines once and for all, and
each line is a prompt and a reply. The reply to a line depends on the line and on the state of the
system alone. `run_shows_reference` says that a session, which reads byte by byte, shows exactly
this.
-/

namespace CommandShell

open Input (Item)

/-! ## Lines -/

namespace Input

/-- The lines of an input, of which `begun` is the part of the first that was already read. A line
ends at a newline, or at an end of the stream if there is a byte in it; an end of the stream
without one is the end of the input. -/
def lines (begun : List UInt8) : List Item → List (List UInt8)
  | [] => if begun = [] then [] else [begun]
  | .byte b :: rest =>
    if b = newline then begun :: lines [] rest else lines (begun ++ [b]) rest
  | .endMark :: rest => if begun = [] then [] else begun :: lines [] rest
  | .fault _ :: rest => lines begun rest

/-- The stream never fails: at worst a read is interrupted. -/
def Sound (items : List Item) : Prop := ∀ f, .fault f ∈ items → f.isInterruption = true

theorem Sound.tail {item : Item} {items : List Item} (h : Sound (item :: items)) :
    Sound items := fun f hf => h f (List.mem_cons_of_mem item hf)

/-- What the answer of a read says about the lines of the input. -/
def Reading.Heads (all : List (List UInt8)) (rest : List Item) : Reading (List UInt8) → Prop
  | .line bytes => all = bytes :: lines [] rest
  | .endOfInput => all = []
  | .fault _ => False

theorem heads_atEnd (seen : List UInt8) (rest : List Item) :
    (atEnd seen).Heads (if seen.reverse = [] then [] else seen.reverse :: lines [] rest) rest := by
  cases seen with
  | nil => rfl
  | cons b seen =>
    rw [if_neg (by simp)]
    rfl

theorem heads_cutFrom {items : List Item} (seen : List UInt8) (taken : List Item)
    (h : Sound items) :
    (cutFrom seen taken items).reading.Heads (lines seen.reverse items)
      (cutFrom seen taken items).rest := by
  fun_induction cutFrom seen taken items with
  | case1 seen taken => exact heads_atEnd seen []
  | case2 seen taken rest =>
    rw [lines, if_pos rfl]
    rfl
  | case3 seen taken b rest hb ih =>
    rw [lines, if_neg hb, ← List.reverse_cons]
    exact ih h.tail
  | case4 seen taken rest => exact heads_atEnd seen rest
  | case5 seen taken f rest hf ih => exact ih h.tail
  | case6 seen taken f rest hf => exact absurd (h f List.mem_cons_self) hf

/-- A read gives the first of the lines and leaves the others. -/
theorem heads_cutLine {items : List Item} (h : Sound items) :
    (cutLine items).reading.Heads (lines [] items) (cutLine items).rest :=
  heads_cutFrom [] [] h

/-- What is left of a sound input is sound. -/
theorem Sound.rest {items : List Item} (h : Sound items) : Sound (readLine items).rest := by
  intro f hf
  apply h
  rw [← taken_append_rest items]
  exact List.mem_append_right _ hf

end Input

/-! ## Replies -/

namespace Registry

/-- The builtin command of the first entry with a name. -/
def first : List (String × Builtin) → String → Option Builtin
  | [], _ => none
  | (entry, builtin) :: rest, name => if entry = name then some builtin else first rest name

theorem lookup_eq_first (r : Registry) (name : String) :
    r.lookup name = first r.entries name := by
  rw [lookup]
  induction r.entries with
  | nil => rfl
  | cons entry rest ih =>
    rw [first, List.find?_cons]
    by_cases h : entry.1 = name
    · simp [h]
    · rw [if_neg h, ← ih, beq_false_of_ne h]

/-- The help text. -/
def helpText (r : Registry) : String :=
  "KPSH\nType program names and arguments, and hit enter.\nThe following are built in:\n"
    ++ String.join (r.names.map fun name => "  " ++ name ++ "\n")
    ++ "Use the man command for information on other programs.\n"

end Registry

variable {σ : Type}

/-- What a shell shows in reply to a line, whether it goes on after it, and the state in which
the system is left. -/
structure Reply (σ : Type) where
  events : Trace
  flow : Flow
  system : σ

namespace Reply

/-- The report of an error. -/
def report (settings : Settings) (e : CommandError) : Trace :=
  [.wrote .err (Utf8.encode (settings.name ++ ": " ++ e.message ++ "\n"))]

/-- The reply to a change of directory: the change or one report. -/
def toCd (sys : System σ) (settings : Settings) (s : σ) : List String → Reply σ
  | [] => ⟨report settings (.missingArgument "cd"), .goOn, s⟩
  | path :: _ =>
    match sys.changeDirectory path s with
    | .ok s' => ⟨[], .goOn, s'⟩
    | .error f => ⟨report settings (.changeDirectory path f), .goOn, s⟩

/-- The reply to the launch of a program: a flush, the launch, and a report if it failed. -/
def toLaunch (sys : System σ) (settings : Settings) (s : σ) (args : List String) : Reply σ :=
  let done := sys.launch args s
  let failure := match done.answer with
    | .ok () => []
    | .error e => report settings e
  ⟨[.flushed .out none, .launched args (sys.workingDirectory s) done.output] ++ failure, .goOn,
    done.after⟩

/-- The reply to a command. -/
def toCommand (sys : System σ) (settings : Settings) (s : σ) : List String → Reply σ
  | [] => ⟨[], .goOn, s⟩
  | name :: args =>
    match Registry.first settings.registry.entries name with
    | some .cd => toCd sys settings s args
    | some .help => ⟨[.wrote .out (Utf8.encode settings.registry.helpText)], .goOn, s⟩
    | some .exit => ⟨[], .stop, s⟩
    | none => toLaunch sys settings s (name :: args)

end Reply

/-- What a session with some lines shows, and the state in which it leaves the system: for each
line a prompt, the reply and a flush, until a reply says stop. After the last line comes a last
prompt and a newline. -/
def reference (sys : System σ) (settings : Settings) (s : σ) : List (List UInt8) → Trace × σ
  | [] =>
    ([.wrote .out (Utf8.encode settings.prompt), .flushed .out none, .flushed .err none,
      .wrote .out (Utf8.encode "\n")], s)
  | line :: rest =>
    let reply := Reply.toCommand sys settings s (words (Utf8.decode line))
    let turn := [.wrote .out (Utf8.encode settings.prompt), .flushed .out none,
      .flushed .err none] ++ reply.events ++ [.flushed .out none]
    match reply.flow with
    | .stop => (turn, reply.system)
    | .goOn =>
      let later := reference sys settings reply.system rest
      (turn ++ later.1, later.2)

/-! ## Commands -/

namespace Shell

open CommandShell.Action (Does)

variable {sys : System σ} {settings : Settings} {args : List String} {w : World σ}

/-- A command that succeeds is not reported. -/
theorem execute_of_ok {events : Trace} {flow : Flow} {s : σ}
    (h : Does (dispatch sys settings args) w events (.ok flow) s) :
    Does (execute sys settings args) w events (.ok flow) s := h.recover_ok _

/-- A command that fails is reported once. -/
theorem execute_of_error {events : Trace} {e : CommandError} {s : σ}
    (h : Does (dispatch sys settings args) w events (.error e) s) :
    Does (execute sys settings args) w (events ++ Reply.report settings e) (.ok .goOn) s := by
  refine h.recover fun w' hw' hs' => ?_
  subst hs'
  exact (Action.does_writeBytes hw' .err _).bind fun w'' hw'' hs'' =>
    Action.does_pure hw'' hs'' _

theorem dispatch_does_builtin {name : String} {builtin : Builtin} {events : Trace}
    {answer : Except CommandError Flow} {s : σ}
    (hl : settings.registry.lookup name = some builtin) (hw : w.Reliable)
    (h : ∀ w', w'.Reliable → w'.system = w.system →
      Does (builtin.run sys settings.registry (name :: args)) w' events answer s) :
    Does (dispatch sys settings (name :: args)) w events answer s := by
  rw [dispatch, hl]
  exact (Action.does_note hw rfl).bind h

/-- Changing the working directory shows nothing, whether it succeeds or not. -/
theorem does_changeDirectory (sys : System σ) (path : String) (hw : w.Reliable) :
    Does (Action.changeDirectory sys path) w []
      ((sys.changeDirectory path w.system).map fun _ => ())
      (match sys.changeDirectory path w.system with
        | .ok s => s
        | .error _ => w.system) := by
  cases hc : sys.changeDirectory path w.system with
  | ok s =>
    have heq : Action.changeDirectory sys path w = ⟨[], .ok (), { w with system := s }⟩ := by
      rw [Action.changeDirectory, hc]
    exact Action.does_of_eq heq ⟨hw.out, hw.err⟩
  | error f =>
    have heq : Action.changeDirectory sys path w = ⟨[], .error f, w⟩ := by
      rw [Action.changeDirectory, hc]
    exact Action.does_of_eq heq hw

theorem execute_does_cd {name : String} (hl : settings.registry.lookup name = some .cd)
    (hw : w.Reliable) :
    Does (execute sys settings (name :: args)) w
      (Reply.toCd sys settings w.system args).events
      (.ok (Reply.toCd sys settings w.system args).flow)
      (Reply.toCd sys settings w.system args).system := by
  cases args with
  | nil =>
    have hd : Does (dispatch sys settings [name]) w [] (.error (.missingArgument "cd")) w.system :=
      dispatch_does_builtin hl hw fun w' hw' hs' => ⟨rfl, rfl, hw', hs'⟩
    exact execute_of_error hd
  | cons path others =>
    rw [Reply.toCd]
    cases hc : sys.changeDirectory path w.system with
    | ok s =>
      refine execute_of_ok (dispatch_does_builtin hl hw fun w' hw' hs' => ?_)
      have hd := (does_changeDirectory sys path hw').mapError
        (CommandError.changeDirectory path)
      rw [hs', hc] at hd
      exact hd.bind fun w'' hw'' hs'' => Action.does_pure hw'' hs'' _
    | error f =>
      have hfail : Does (dispatch sys settings (name :: path :: others)) w []
          (.error (.changeDirectory path f)) w.system := by
        refine dispatch_does_builtin hl hw fun w' hw' hs' => ?_
        have hd := (does_changeDirectory sys path hw').mapError
          (CommandError.changeDirectory path)
        rw [hs', hc] at hd
        exact hd.bind_error _
      exact execute_of_error hfail

/-- The help text consists of its lines. -/
theorem join_helpLines (registry : Registry) :
    String.join ((Builtin.helpLines registry).map (· ++ "\n")) = registry.helpText := by
  have hbanner :
      String.join (["KPSH", "Type program names and arguments, and hit enter.",
        "The following are built in:"].map (· ++ "\n"))
      = "KPSH\nType program names and arguments, and hit enter.\n"
        ++ "The following are built in:\n" := by
    simp
  have hlast : String.join
        (["Use the man command for information on other programs."].map (· ++ "\n"))
      = "Use the man command for information on other programs.\n" := by simp
  have hnames : (registry.names.map ("  " ++ ·)).map (· ++ "\n")
      = registry.names.map fun name => "  " ++ name ++ "\n" := List.map_map
  rw [Builtin.helpLines, List.map_append, List.map_append, String.join_append,
    String.join_append, hbanner, hnames, hlast]
  rfl

/-- The lines of the help text are seen as one text. -/
theorem seen_helpLines (registry : Registry) :
    Trace.seen ((Builtin.helpLines registry).map (Action.lineWritten .out))
      = Trace.seen [.wrote .out (Utf8.encode registry.helpText)] := by
  have hlines : (Builtin.helpLines registry).map (Action.lineWritten .out)
      = (((Builtin.helpLines registry).map (· ++ "\n")).map Utf8.encode).map (.wrote .out) := by
    rw [List.map_map, List.map_map]
    rfl
  rw [hlines, Trace.seen_writes, Utf8.flatten_encode, join_helpLines]

theorem execute_does_help {name : String} (hl : settings.registry.lookup name = some .help)
    (hw : w.Reliable) :
    Does (execute sys settings (name :: args)) w
      [.wrote .out (Utf8.encode settings.registry.helpText)] (.ok .goOn) w.system := by
  refine execute_of_ok (dispatch_does_builtin hl hw fun w' hw' hs' => ?_)
  have hd := (Action.does_writeLines hw' .out (Builtin.helpLines settings.registry)).mapError
    CommandError.stream
  rw [hs'] at hd
  exact (hd.congr (seen_helpLines settings.registry)).bind fun w'' hw'' hs'' =>
    Action.does_pure hw'' hs'' _

theorem execute_does_launch {name : String} (hl : settings.registry.lookup name = none)
    (hw : w.Reliable) :
    Does (execute sys settings (name :: args)) w
      (Reply.toLaunch sys settings w.system (name :: args)).events (.ok .goOn)
      (Reply.toLaunch sys settings w.system (name :: args)).system := by
  have hflush := (Action.does_flush hw .out).mapError CommandError.stream
  have hlaunch : ∀ w', w'.Reliable → w'.system = w.system →
      Does (Action.launch sys (name :: args)) w'
        [.launched (name :: args) (sys.workingDirectory w.system)
          (sys.launch (name :: args) w.system).output]
        (sys.launch (name :: args) w.system).answer
        (sys.launch (name :: args) w.system).after := by
    intro w' hw' hs'
    rw [← hs']
    exact ⟨rfl, rfl, ⟨hw'.out, hw'.err⟩, rfl⟩
  -- the note of the command before the launch is not seen
  have hdispatch : ∀ {events answer s},
      Does (launch sys (name :: args)) w events answer s →
      Does (dispatch sys settings (name :: args)) w events answer s := by
    intro events answer s h
    have heq : dispatch sys settings (name :: args) w = _ := dispatch_launch hl w
    refine ⟨?_, ?_, ?_, ?_⟩ <;> rw [heq]
    · exact h.shows
    · exact h.answers
    · exact h.reliable
    · exact h.leaves
  rw [Reply.toLaunch]
  cases ha : (sys.launch (name :: args) w.system).answer with
  | ok u =>
    rw [ha] at hlaunch
    refine execute_of_ok (hdispatch (hflush.bind fun w' hw' hs' => ?_))
    exact (hlaunch w' hw' hs').bind fun w'' hw'' hs'' => Action.does_pure hw'' hs'' _
  | error e =>
    rw [ha] at hlaunch
    refine execute_of_error (hdispatch (hflush.bind fun w' hw' hs' => ?_))
    exact (hlaunch w' hw' hs').bind_error _

/-- A command shows the reply to it. -/
theorem execute_does (sys : System σ) (settings : Settings) (args : List String)
    (hw : w.Reliable) :
    Does (execute sys settings args) w (Reply.toCommand sys settings w.system args).events
      (.ok (Reply.toCommand sys settings w.system args).flow)
      (Reply.toCommand sys settings w.system args).system := by
  cases args with
  | nil => exact execute_of_ok ⟨rfl, rfl, hw, rfl⟩
  | cons name args =>
    have hfirst := Registry.lookup_eq_first settings.registry name
    rw [Reply.toCommand, ← hfirst]
    cases hl : settings.registry.lookup name with
    | none => exact execute_does_launch hl hw
    | some builtin =>
      cases builtin with
      | cd => exact execute_does_cd hl hw
      | help => exact execute_does_help hl hw
      | exit =>
        exact execute_of_ok (dispatch_does_builtin hl hw fun w' hw' hs' => ⟨rfl, rfl, hw', hs'⟩)

end Shell

namespace Session

open CommandShell.Action (Does)

variable {sys : System σ} {settings : Settings} {input : List Item} {w : World σ}

/-- What is seen of a greeting. -/
def Greeted (settings : Settings) : Trace :=
  [.wrote .out (Utf8.encode settings.prompt), .flushed .out none, .flushed .err none]

theorem greet_does (settings : Settings) (hw : w.Reliable) :
    Does (greet settings) w (Greeted settings) (.ok ()) w.system := by
  have hprompt : Does (Shell.prompt settings.prompt) w
      ([] ++ ([.wrote .out (Utf8.encode settings.prompt)] ++ [.flushed .out none]))
      (.ok ()) w.system := by
    have hnote : Does (Action.note .prompting : Action σ Fault Unit) w [] (.ok ()) w.system :=
      Action.does_note hw rfl
    rw [Shell.prompt]
    refine hnote.bind fun w₁ hw₁ hs₁ => ?_
    rw [← hs₁]
    refine (Action.does_writeBytes hw₁ .out _).bind fun w₂ hw₂ hs₂ => ?_
    rw [← hs₂]
    exact Action.does_flush hw₂ .out
  refine (hprompt.mapError SessionError.prompt).bind fun w₃ hw₃ hs₃ => ?_
  rw [← hs₃]
  exact (Action.does_flush hw₃ .err).mapError SessionError.stream

theorem obey_does (sys : System σ) (settings : Settings) (line : String) (hw : w.Reliable) :
    Does (obey sys settings line) w
      ((Reply.toCommand sys settings w.system (words line)).events ++ [.flushed .out none])
      (.ok (Reply.toCommand sys settings w.system (words line)).flow)
      (Reply.toCommand sys settings w.system (words line)).system := by
  -- no report fails here, so the flush is always reached
  have hexec := (Shell.execute_does sys settings (words line) hw).mapError SessionError.stream
  refine hexec.bind fun w₁ hw₁ hs₁ => ?_
  have hflush := (Action.does_flush hw₁ .out).mapError SessionError.stream
  rw [hs₁] at hflush
  have hpure : [.flushed .out none] = [.flushed .out none] ++ ([] : Trace) := rfl
  rw [hpure]
  exact hflush.bind fun w₂ hw₂ hs₂ => Action.does_pure hw₂ hs₂ _

/-- The first half of a turn shows the greeting, and answers as the read does. -/
theorem ask_does (settings : Settings) (input : List Item) (hw : w.Reliable) :
    (ask settings input w).trace.seen = (Greeted settings).seen ∧
      (ask settings input w).request = .ofReading (Input.readLine input).reading ∧
      (ask settings input w).unread = (Input.readLine input).rest ∧
      (ask settings input w).world.Reliable ∧ (ask settings input w).world.system = w.system := by
  have hgreet := greet_does settings hw
  rcases hg : greet settings w with ⟨events, answer, w'⟩
  have hanswer := hgreet.answers
  rw [hg] at hanswer
  obtain rfl : answer = .ok () := hanswer
  rw [ask_of_greet_ok hg]
  have hshows := hgreet.shows
  have hreliable := hgreet.reliable
  have hleaves := hgreet.leaves
  rw [hg] at hshows hreliable hleaves
  refine ⟨?_, rfl, rfl, hreliable, hleaves⟩
  -- the read itself is not seen
  have hread : Trace.seen [.read (Input.readLine input).taken] = Trace.seen [] := rfl
  have hasked := Trace.seen_append_congr hshows hread
  rwa [List.append_nil] at hasked

/-- A session on an input shows the lines of the input. -/
def Shows (sys : System σ) (settings : Settings) (input : List Item) (w : World σ) : Prop :=
  (run sys settings input w).trace.seen
      = (reference sys settings w.system (Input.lines [] input)).1.seen ∧
    (run sys settings input w).answer = .ok () ∧
    (run sys settings input w).world.system
      = (reference sys settings w.system (Input.lines [] input)).2

/-- At the end of the input the session shows a newline after the prompt. -/
theorem shows_of_end (hw : w.Reliable) (hread : (Input.readLine input).reading = .endOfInput)
    (hlines : Input.lines [] input = []) : Shows sys settings input w := by
  obtain ⟨hseen, hreq, -, hreliable, hsys⟩ := ask_does settings input hw
  rw [hread] at hreq
  have hlast := (Action.does_writeBytes hreliable .out (Utf8.encode "\n")).mapError
    SessionError.stream
  have hturn : turn sys settings input w =
      ⟨(ask settings input w).trace ++ (farewell (ask settings input w).world).trace,
        .ofFarewell (farewell (ask settings input w).world).answer,
        (ask settings input w).unread, (farewell (ask settings input w).world).world⟩ := by
    rw [turn, Asked.finish, hreq]
    rfl
  have hanswer : (farewell (ask settings input w).world).answer = .ok () := hlast.answers
  have hended : (turn sys settings input w).verdict = .ended := by
    rw [hturn, hanswer]
    rfl
  rw [Shows, run_of_ended hended, hturn, hlines, reference]
  exact ⟨Trace.seen_append_congr hseen hlast.shows, rfl, hlast.leaves.trans hsys⟩

/-- On a line the session shows the reply, and goes on with the other lines if the reply says
so. -/
theorem shows_of_line {line : List UInt8} {rest : List (List UInt8)} (hw : w.Reliable)
    (hread : (Input.readLine input).reading = .line (Utf8.decode line))
    (hlines : Input.lines [] input = line :: rest)
    (hnext : ∀ w' : World σ, w'.Reliable → Shows sys settings (Input.readLine input).rest w')
    (hrest : Input.lines [] (Input.readLine input).rest = rest) :
    Shows sys settings input w := by
  obtain ⟨hseen, hreq, hunread, hreliable, hsys⟩ := ask_does settings input hw
  rw [hread] at hreq
  have hobey := obey_does sys settings (Utf8.decode line) hreliable
  rw [hsys] at hobey
  have hturn := turn_of_command sys hreq
  rw [hobey.answers, hunread] at hturn
  have hturnSeen := Trace.seen_append_congr hseen hobey.shows
  rw [← List.append_assoc] at hturnSeen
  rw [Shows, hlines]
  cases hflow : (Reply.toCommand sys settings w.system (words (Utf8.decode line))).flow with
  | stop =>
    rw [hflow] at hturn
    have hended : (turn sys settings input w).verdict = .ended := by
      rw [hturn]
      rfl
    rw [run_of_ended hended, hturn, reference]
    simp only [hflow]
    exact ⟨hturnSeen, rfl, hobey.leaves⟩
  | goOn =>
    rw [hflow] at hturn
    have hgo : (turn sys settings input w).verdict = .goOn := by
      rw [hturn]
      rfl
    obtain ⟨hlater, hanswer, hsystem⟩ := hnext _ hobey.reliable
    rw [hrest, hobey.leaves] at hlater hsystem
    rw [run_of_goOn hgo, hturn, reference]
    simp only [hflow]
    exact ⟨Trace.seen_append_congr hturnSeen hlater, hanswer, hsystem⟩

/-- A session whose streams work, and whose input fails at no byte, shows its lines. -/
theorem shows (sys : System σ) (settings : Settings) (input : List Item) (w : World σ)
    (hin : Input.Sound input) (hw : w.Reliable) : Shows sys settings input w := by
  -- by induction on the input, of which every line is a part
  have hheads := Input.heads_cutLine hin
  cases hr : (Input.cutLine input).reading with
  | line line =>
    rw [hr] at hheads
    have hread : (Input.readLine input).reading = .line (Utf8.decode line) := by
      rw [Input.readLine, hr]
      rfl
    have hlt := Input.length_rest_lt_of_line hread
    exact shows_of_line hw hread hheads (fun w' hw' => shows sys settings _ w' hin.rest hw') rfl
  | endOfInput =>
    rw [hr] at hheads
    have hread : (Input.readLine input).reading = .endOfInput := by
      rw [Input.readLine, hr]
      rfl
    exact shows_of_end hw hread hheads
  | fault f =>
    rw [hr] at hheads
    exact hheads.elim
termination_by input.length

/-- A session whose streams work, and whose input fails at no byte, shows what its lines say, one
after the other: for each line the prompt, the reply to the command on it, and a flush. It ends
after the first reply that says stop, or else with a newline after the last prompt, in both cases
without an error, and leaves the system as the replies do. -/
theorem run_shows_reference (sys : System σ) (settings : Settings) (input : List Item)
    (w : World σ) (hin : Input.Sound input) (hout : w.out.Reliable) (herr : w.err.Reliable) :
    (run sys settings input w).trace.seen
        = (reference sys settings w.system (Input.lines [] input)).1.seen ∧
      (run sys settings input w).answer = .ok () ∧
      (run sys settings input w).world.system
        = (reference sys settings w.system (Input.lines [] input)).2 :=
  shows sys settings input w hin ⟨hout, herr⟩

/-- A blank line, a line that an end of the stream cuts short, and one that is not read. -/
def blankThenExit : List Item :=
  Input.ofArrivals [.bytes (Utf8.encode "\nexit"), .endMark, .bytes (Utf8.encode "help\n")]

/-- Streams that take three bytes at a time, and interrupt every other write. -/
def haltingWorld : World Rehearsal :=
  let halting : Sink := { pieceSize := some 3, interrupts := true }
  ⟨halting, halting, (⟨⟨[]⟩, []⟩, [])⟩

theorem run_shows_reference_exit :
    Input.Sound blankThenExit ∧ haltingWorld.out.Reliable ∧ haltingWorld.err.Reliable ∧
      (run Rehearsal.system {} blankThenExit haltingWorld).trace.seen =
        [.wrote .out (Utf8.encode "> "), .flushed .out none, .flushed .err none,
          .flushed .out none, .wrote .out (Utf8.encode "> "), .flushed .out none,
          .flushed .err none, .flushed .out none] ∧
      (run Rehearsal.system {} blankThenExit haltingWorld).answer = .ok () := by
  have hin : Input.Sound blankThenExit := by
    intro f hf
    simp [blankThenExit, Input.ofArrivals, Input.Arrival.items] at hf
  have hout : haltingWorld.out.Reliable := ⟨rfl, by decide, fun _ _ => rfl⟩
  have hlines : Input.lines [] blankThenExit
      = [[], Utf8.encode "exit", Utf8.encode "help"] := by decide
  have hblank : words (Utf8.decode []) = [] := by decide +kernel
  have hexit : words (Utf8.decode (Utf8.encode "exit")) = ["exit"] := by decide +kernel
  obtain ⟨hseen, hanswer, -⟩ :=
    run_shows_reference Rehearsal.system {} blankThenExit haltingWorld hin hout hout
  refine ⟨hin, hout, hout, ?_, hanswer⟩
  rw [hseen, hlines, reference, reference, hexit, hblank]
  rfl

end Session
end CommandShell
