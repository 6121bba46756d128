import CommandShell.Machine
import CommandShell.Proofs.Commands
import CommandShell.Proofs.Observation

/-!
# Where a shell stands

Of all that a shell does, only a `cd` that succeeds moves it. `System.replay` computes the state of
the system from the events alone: a command changes it as a `cd` does, a launch leaves it as the
program does, and nothing else matters. Every program is launched in the place that the events
before it lead to. `Trace.Accounted` follows the state along a trace, every action of a shell is
accounted for, and where launches leave the place alone, no event but a `cd` that succeeds
changes it. If what a launch leaves does not even matter for a later `cd`, the place is computed
from the commands alone (`Directories.after`). The theorem about whole sessions and about calls in
any order is `located`.
-/

namespace CommandShell

variable {σ δ κ : Type}

/-! ## Places -/

namespace Directories

variable (directories : Directories δ) (registry : Registry)

/-- The place after a command. A command moves if its first word calls `cd`, it has a second word,
and one can go there. -/
def afterCommand (place : δ) : List String → δ
  | name :: path :: _ =>
    if registry.lookup name = some .cd then
      match directories.changeDirectory path place with
      | .ok there => there
      | .error _ => place
    else place
  | _ => place

/-- The place after some commands, one after the other. -/
def after (place : δ) (commands : List (List String)) : δ :=
  commands.foldl (directories.afterCommand registry) place

variable {directories registry} {place : δ}

/-- Blank lines move nothing. -/
theorem after_proper (commands : List (List String)) :
    directories.after registry place (proper commands)
      = directories.after registry place commands := by
  induction commands generalizing place with
  | nil => rfl
  | cons args rest ih =>
    cases args with
    | nil => exact ih
    | cons name others => exact ih

end Directories

namespace System

variable (sys : System σ) (registry : Registry)

/-- The state after a command, as far as the command changes it by itself. It does so if its first
word calls `cd`, it has a second word, and one can go there. -/
def afterCommand (s : σ) : List String → σ
  | name :: path :: _ =>
    if registry.lookup name = some .cd then
      match sys.changeDirectory path s with
      | .ok s' => s'
      | .error _ => s
    else s
  | _ => s

/-- The state after an event. -/
def afterEvent (s : σ) : Event → σ
  | .entered args => sys.afterCommand registry s args
  | .launched args _ _ => (sys.launch args s).after
  | _ => s

/-- The state after some events, one after the other. -/
def replay (s : σ) (trace : Trace) : σ := trace.foldl (sys.afterEvent registry) s

/-- No launch changes where the shell stands. -/
def LeavesPlace : Prop :=
  ∀ args s, sys.workingDirectory (sys.launch args s).after = sys.workingDirectory s

variable {sys registry} {s : σ}

theorem replay_concat (before : Trace) (e : Event) :
    sys.replay registry s (before ++ [e])
      = sys.afterEvent registry (sys.replay registry s before) e := by
  rw [replay, List.foldl_append]
  rfl

/-- A command that calls no `cd` changes nothing by itself. -/
theorem afterCommand_of_ne {name : String} (h : registry.lookup name ≠ some .cd)
    (rest : List String) : sys.afterCommand registry s (name :: rest) = s := by
  cases rest with
  | nil => rfl
  | cons path others => rw [afterCommand, if_neg h]

/-- A command changes nothing by itself, or it is a `cd` that succeeds. -/
theorem afterCommand_cases (sys : System σ) (registry : Registry) (s : σ) (args : List String) :
    sys.afterCommand registry s args = s ∨
      ∃ name path others, args = name :: path :: others ∧ registry.lookup name = some .cd ∧
        sys.changeDirectory path s = .ok (sys.afterCommand registry s args) := by
  match args with
  | [] | [_] => exact Or.inl rfl
  | name :: path :: others =>
    by_cases hcd : registry.lookup name = some .cd
    · rw [afterCommand, if_pos hcd]
      cases hchange : sys.changeDirectory path s with
      | ok s' => exact Or.inr ⟨name, path, others, rfl, hcd, hchange⟩
      | error f => exact Or.inl rfl
    · exact Or.inl (afterCommand_of_ne hcd _)

/-- Where launches leave the place alone, an event leaves it or is a `cd` that succeeds. -/
theorem LeavesPlace.afterEvent_cases (h : sys.LeavesPlace) (s : σ) (e : Event) :
    sys.workingDirectory (sys.afterEvent registry s e) = sys.workingDirectory s ∨
      ∃ name path others, e = .entered (name :: path :: others) ∧
        registry.lookup name = some .cd ∧
        sys.changeDirectory path s = .ok (sys.afterEvent registry s e) := by
  cases e with
  | entered args =>
    rcases sys.afterCommand_cases registry s args with
      hsame | ⟨name, path, others, rfl, hcd, hchange⟩
    · exact Or.inl (congrArg sys.workingDirectory hsame)
    · exact Or.inr ⟨name, path, others, rfl, hcd, hchange⟩
  | launched args directory output => exact Or.inl (h args s)
  | _ => exact Or.inl rfl

/-! ### Systems of two parts -/

theorem leavesPlace_ofParts (directories : Directories δ) (launcher : Launcher κ) :
    (System.ofParts directories launcher).LeavesPlace := fun _ _ => rfl

variable {directories : Directories δ} {launcher : Launcher κ}

theorem afterCommand_ofParts (s : δ × κ) (args : List String) :
    (System.ofParts directories launcher).afterCommand registry s args
      = (directories.afterCommand registry s.1 args, s.2) := by
  match args with
  | [] | [_] => rfl
  | name :: path :: others =>
    simp only [System.afterCommand, Directories.afterCommand, System.ofParts]
    split
    · cases directories.changeDirectory path s.1 with
      | ok there => rfl
      | error f => rfl
    · rfl

/-- The place is not changed by what a launch leaves, so it follows from the commands. -/
theorem replay_ofParts (s : δ × κ) (trace : Trace) :
    ((System.ofParts directories launcher).replay registry s trace).1
      = directories.after registry s.1 trace.commands := by
  induction trace generalizing s with
  | nil => rfl
  | cons e rest ih =>
    refine (ih _).trans ?_
    cases e with
    | entered args =>
      show directories.after registry
        ((System.ofParts directories launcher).afterCommand registry s args).1 _ = _
      rw [afterCommand_ofParts]
      rfl
    | _ => rfl

end System

/-- A program may change the file tree of a machine, but not where the machine stands. -/
theorem Machine.leavesPlace : Machine.system.LeavesPlace := by
  intro args m
  show (launch args m).after.standing.workingDirectory = m.standing.workingDirectory
  cases args with
  | nil => rfl
  | cons program others =>
    rw [launch]
    cases m.startAll (program :: others) with
    | error f => rfl
    | ok d => rfl

/-! ## Traces -/

namespace Trace

variable (sys : System σ) (registry : Registry)

/-- A trace leads from one state of the system to another: every event changes it as it should, and
every program is launched where the shell stands. -/
def Accounted : σ → Trace → σ → Prop
  | s, [], final => final = s
  | s, e :: rest, final =>
    (∀ args directory output, e = .launched args directory output →
      directory = sys.workingDirectory s) ∧
    Accounted (sys.afterEvent registry s e) rest final

variable {sys registry} {s middle final : σ}

theorem Accounted.append {first second : Trace} (h : Accounted sys registry s first middle)
    (h' : Accounted sys registry middle second final) :
    Accounted sys registry s (first ++ second) final := by
  induction first generalizing s with
  | nil =>
    obtain rfl : middle = s := h
    exact h'
  | cons e rest ih => exact ⟨h.1, ih h.2⟩

/-- Where a trace leads is computed from its events. -/
theorem Accounted.final_eq {trace : Trace} (h : Accounted sys registry s trace final) :
    final = sys.replay registry s trace := by
  induction trace generalizing s with
  | nil => exact h
  | cons e rest ih => exact ih h.2

/-- Where a program is launched is computed from the events before. -/
theorem Accounted.directory_eq {before later : Trace} {args : List String} {directory : String}
    {output : List (Stream × List UInt8)}
    (h : Accounted sys registry s (before ++ .launched args directory output :: later) final) :
    directory = sys.workingDirectory (sys.replay registry s before) := by
  induction before generalizing s with
  | nil => exact h.1 args directory output rfl
  | cons e rest ih => exact ih h.2

end Trace

/-! ## Actions -/

namespace Action

variable {ε α : Type}

/-- The state of the system is the one that the trace of the action leads to. -/
def Accounts (sys : System σ) (registry : Registry) (act : Action σ ε α) : Prop :=
  ∀ w, (act w).trace.Accounted sys registry w.system (act w).world.system

variable (sys : System σ) (registry : Registry)

/-- An event that neither changes the system nor launches is accounted for. -/
theorem accounts_note {e : Event} (hstays : ∀ s, sys.afterEvent registry s e = s)
    (hlaunch : ∀ args directory output, e ≠ .launched args directory output) :
    Accounts sys registry (note e : Action σ ε Unit) :=
  fun w => ⟨fun args directory output h => absurd h (hlaunch args directory output),
    (hstays w.system).symm⟩

/-- Nothing that is done without the system below changes it. -/
theorem parallel_accounts :
    Parallel fun {ε α : Type} (act : Action σ ε α) (_ : Action σ ε α) =>
      Accounts sys registry act where
  pure _ _ := rfl
  fail _ _ := rfl
  follow hfirst hnext w := (hfirst w).append (hnext _ _)
  prompting := accounts_note sys registry (fun _ => rfl) nofun
  read _ := accounts_note sys registry (fun _ => rfl) nofun
  writeBytes stream bytes w := by
    have hsystem : (writeBytes stream bytes w).world.system = w.system := by
      rw [writeBytes_world, World.setSink_system]
    rw [hsystem]
    rcases writeBytes_cases stream bytes w with ⟨w', hw⟩ | ⟨taken, f, w', -, -, hw⟩
    · rw [hw]
      exact ⟨nofun, rfl⟩
    · rw [hw]
      exact ⟨nofun, nofun, rfl⟩
  flush stream w := ⟨nofun, World.setSink_system w stream _⟩

/-- A launch is made where the shell stands, and leaves what the program leaves. -/
theorem accounts_launch (args : List String) : Accounts sys registry (launch sys args) := by
  intro w
  refine ⟨fun args' directory output h => ?_, rfl⟩
  cases h
  rfl

theorem accounts_entered {name : String} (h : registry.lookup name ≠ some .cd)
    (rest : List String) :
    Accounts sys registry (note (.entered (name :: rest)) : Action σ ε Unit) :=
  accounts_note sys registry (fun _ => System.afterCommand_of_ne h rest) nofun

/-- A line that is written to the standard error changes nothing else. -/
theorem writeLine_err_world (text : String) (w : World σ) :
    (writeLine .err text w).world
      = ⟨w.out, (w.err.write (Utf8.encode (text ++ "\n"))).sink, w.system⟩ := by
  rw [writeLine, write, writeBytes_world]
  rfl

end Action

/-! ## Commands -/

namespace Shell

open CommandShell.Action (Accounts)

variable (sys : System σ) (settings : Settings)

/-- Whatever becomes of a `cd`, it leaves one event, and it changes the system if it succeeds. -/
theorem exists_dispatch_cd {name : String} (h : settings.registry.lookup name = some .cd)
    (rest : List String) (w : World σ) :
    ∃ answer, dispatch sys settings (name :: rest) w =
      ⟨[.entered (name :: rest)], answer, ⟨w.out, w.err,
        sys.afterCommand settings.registry w.system (name :: rest)⟩⟩ := by
  cases rest with
  | nil =>
    rw [dispatch_builtin h]
    exact ⟨_, rfl⟩
  | cons path others =>
    rw [dispatch_builtin h, System.afterCommand, if_pos h]
    simp only [Builtin.run, Builtin.runCd, Action.bind_eq, Action.pure_eq]
    cases hc : sys.changeDirectory path w.system with
    | ok s =>
      have hd : Action.changeDirectory sys path w = ⟨[], .ok (), { w with system := s }⟩ := by
        rw [Action.changeDirectory, hc]
      rw [Action.bind_of_eq_ok (Action.mapError_of_eq_ok hd)]
      exact ⟨_, rfl⟩
    | error f =>
      -- the shell stays where it is
      have hd : Action.changeDirectory sys path w = ⟨[], .error f, w⟩ := by
        rw [Action.changeDirectory, hc]
      rw [Action.bind_of_eq_error (Action.mapError_of_eq_error hd)]
      exact ⟨_, rfl⟩

/-- Only the report of a `cd` that fails is written, to the standard error. -/
theorem exists_execute_cd {name : String} (h : settings.registry.lookup name = some .cd)
    (rest : List String) (w : World σ) :
    ∃ reports answer err, execute sys settings (name :: rest) w =
        ⟨.entered (name :: rest) :: reports, answer, ⟨w.out, err,
          sys.afterCommand settings.registry w.system (name :: rest)⟩⟩ ∧
      ∀ e ∈ reports, (∃ bytes, e = .wrote .err bytes) ∨ ∃ f, e = .refused .err f := by
  obtain ⟨answer, hd⟩ := exists_dispatch_cd sys settings h rest w
  cases answer with
  | ok flow =>
    rw [execute, Action.recover_of_ok (by rw [hd]), hd]
    exact ⟨[], _, _, rfl, by simp⟩
  | error e =>
    -- the report comes after the command, and may fail as well
    rw [execute, Action.recover_of_error (by rw [hd]), hd]
    simp only [Action.bind_eq, Action.pure_eq]
    generalize sys.afterCommand settings.registry w.system (name :: rest) = s
    have hworld := Action.writeLine_err_world (report settings e) (⟨w.out, w.err, s⟩ : World σ)
    rcases Action.writeLine_cases .err (report settings e) (⟨w.out, w.err, s⟩ : World σ) with
      ⟨w', hw⟩ | ⟨taken, f, w', -, -, hw⟩
    · rw [hw] at hworld
      obtain rfl : w' = _ := hworld
      rw [Action.bind_of_eq_ok hw]
      exact ⟨_, _, _, rfl, by simp [Action.lineWritten, Action.pure]⟩
    · rw [hw] at hworld
      obtain rfl : w' = _ := hworld
      rw [Action.bind_of_eq_error hw]
      exact ⟨_, _, _, rfl, by simp⟩

/-- Every command is accounted for. -/
theorem accounts_dispatch (args : List String) :
    Accounts sys settings.registry (dispatch sys settings args) := by
  cases args with
  | nil => exact fun _ => rfl
  | cons name rest =>
    by_cases h : settings.registry.lookup name = some .cd
    · -- the event of a `cd` and its effect are accounted for together
      intro w
      obtain ⟨answer, heq⟩ := exists_dispatch_cd sys settings h rest w
      rw [heq]
      exact ⟨nofun, rfl⟩
    · -- a command that is no `cd` changes nothing by itself
      exact (Action.parallel_accounts sys settings.registry).dispatch sys sys
        (Action.accounts_entered sys settings.registry h rest) (fun hcd => absurd hcd h)
        fun _ => Action.accounts_launch sys settings.registry _

theorem accounts_execute (args : List String) :
    Accounts sys settings.registry (execute sys settings args) :=
  (Action.parallel_accounts sys settings.registry).execute sys sys
    (accounts_dispatch sys settings args)

/-! ## Calls from outside -/

/-- A command may be run with a report of its failure, or without. -/
inductive Call where
  | dispatch (args : List String)
  | execute (args : List String)

/-- The arguments of a call. -/
def Call.args : Call → List String
  | dispatch args => args
  | execute args => args

/-- Makes some calls, one after the other, whatever they answer. -/
def runCalls (sys : System σ) (settings : Settings) : List Call → Action σ Fault Unit
  | [] => Action.pure ()
  | .dispatch args :: rest =>
    (dispatch sys settings args).follow fun _ => runCalls sys settings rest
  | .execute args :: rest =>
    (execute sys settings args).follow fun _ => runCalls sys settings rest

theorem accounts_runCalls (calls : List Call) :
    Accounts sys settings.registry (runCalls sys settings calls) := by
  induction calls with
  | nil => exact fun _ => rfl
  | cons call rest ih =>
    intro w
    cases call with
    | dispatch args => exact (accounts_dispatch sys settings args w).append (ih _)
    | execute args => exact (accounts_execute sys settings args w).append (ih _)

theorem commands_runCalls (calls : List Call) (w : World σ) :
    (runCalls sys settings calls w).trace.commands = proper (calls.map Call.args) := by
  induction calls generalizing w with
  | nil => rfl
  | cons call rest ih =>
    have hcons : proper ((call :: rest).map Call.args)
        = proper [call.args] ++ proper (rest.map Call.args) := proper_append [call.args] _
    rw [hcons]
    cases call with
    | dispatch args =>
      have hfirst : (dispatch sys settings args w).trace.commands = proper [args] :=
        (dispatch_course sys settings args w).commands
      simp only [runCalls, Action.follow, Trace.commands_append, hfirst, ih, Call.args]
    | execute args =>
      have hfirst : (execute sys settings args w).trace.commands = proper [args] :=
        (execute_told sys settings args w).commands
      simp only [runCalls, Action.follow, Trace.commands_append, hfirst, ih, Call.args]

end Shell

/-! ## Sessions -/

namespace Session

open Input (Item)

theorem accounted_run (sys : System σ) (settings : Settings) (input : List Item) (w : World σ) :
    (run sys settings input w).trace.Accounted sys settings.registry w.system
      (run sys settings input w).world.system := by
  have hturn : ∀ input w, (turn sys settings input w).trace.Accounted sys settings.registry
      w.system (turn sys settings input w).world.system := by
    intro input w
    rw [turn_eq]
    exact (Action.parallel_accounts sys settings.registry).turnAction sys sys
      (Shell.accounts_execute sys settings) _ w
  induction input, w using run_induction sys settings with
  | last input w hgo =>
    obtain ⟨answer, hrun⟩ := run_of_not_goOn hgo
    rw [hrun]
    exact hturn input w
  | next input w hgo ih =>
    rw [run_of_goOn hgo]
    exact (hturn input w).append ih

/-- What a shell did, replayed on its system, leads to the state that it left and to the places of
its launches, and of all events only a `cd` that succeeds leads to another place. -/
structure Replayed (sys : System σ) (registry : Registry) (start final : σ)
    (commands : List (List String)) (trace : Trace) : Prop where
  ran : trace.commands = commands.filter (· ≠ [])
  final : final = sys.replay registry start trace
  launches : ∀ (before : Trace) args directory output later,
    trace = before ++ .launched args directory output :: later →
      directory = sys.workingDirectory (sys.replay registry start before)
  moves : ∀ (before : Trace) e later, trace = before ++ e :: later →
    let here := sys.replay registry start before
    let there := sys.replay registry start (before ++ [e])
    sys.workingDirectory there = sys.workingDirectory here ∨
      ∃ name path others, e = .entered (name :: path :: others) ∧
        registry.lookup name = some .cd ∧ sys.changeDirectory path here = .ok there

/-- The place of a shell is made by its commands: where it stands at the end, and where each of its
programs is launched, is computed from those that were run before. -/
structure Located (directories : Directories δ) (registry : Registry) (start final : δ)
    (commands : List (List String)) (trace : Trace) : Prop where
  ran : trace.commands = commands.filter (· ≠ [])
  final : final = directories.after registry start commands
  launches : ∀ (before : Trace) args directory output later,
    trace = before ++ .launched args directory output :: later →
      directory = directories.workingDirectory (directories.after registry start before.commands)

theorem replayed_of_accounted {sys : System σ} (hleaves : sys.LeavesPlace) {registry : Registry}
    {start final : σ} {commands : List (List String)} {trace : Trace}
    (h : trace.Accounted sys registry start final) (hran : trace.commands = proper commands) :
    Replayed sys registry start final commands trace := by
  refine ⟨hran, h.final_eq, ?_, ?_⟩
  · rintro before args directory output later rfl
    exact h.directory_eq
  · rintro before e later -
    dsimp only
    rw [System.replay_concat]
    exact hleaves.afterEvent_cases _ e

theorem Replayed.toLocated {directories : Directories δ} {launcher : Launcher κ}
    {registry : Registry} {start final : δ × κ} {commands : List (List String)} {trace : Trace}
    (h : Replayed (.ofParts directories launcher) registry start final commands trace) :
    Located directories registry start.1 final.1 commands trace := by
  refine ⟨h.ran, ?_, ?_⟩
  · rw [h.final, System.replay_ofParts, h.ran]
    exact Directories.after_proper commands
  · intro before args directory output later hsplit
    rw [h.launches before args directory output later hsplit]
    exact congrArg directories.workingDirectory (System.replay_ofParts start before)

/-- In a session, and in calls of commands in any order, the commands decide where the shell
stands: it goes where a `cd` with a second word leads, if one can go there, and nothing else moves
it, whatever the launches and the streams do, as long as no launch moves the shell itself. Where
launches do not change what a `cd` meets either, the commands alone decide. The commands of a
session are the words of the lines that it reads. A `cd` launches nothing and writes nothing but
the report of its failure, to the standard error. -/
theorem located (settings : Settings) :
    (∀ {σ : Type} (sys : System σ), sys.LeavesPlace →
      (∀ input (w : World σ),
        let ending := run sys settings input w
        Replayed sys settings.registry w.system ending.world.system
          (ending.trace.lines.map words) ending.trace) ∧
      ∀ calls (w : World σ),
        let done := Shell.runCalls sys settings calls w
        Replayed sys settings.registry w.system done.world.system
          (calls.map Shell.Call.args) done.trace) ∧
    (∀ {δ κ : Type} (directories : Directories δ) (launcher : Launcher κ),
      let sys := System.ofParts directories launcher
      (∀ input (w : World (δ × κ)),
        let ending := run sys settings input w
        Located directories settings.registry w.system.1 ending.world.system.1
          (ending.trace.lines.map words) ending.trace) ∧
      (∀ calls (w : World (δ × κ)),
        let done := Shell.runCalls sys settings calls w
        Located directories settings.registry w.system.1 done.world.system.1
          (calls.map Shell.Call.args) done.trace) ∧
      ∀ s args, sys.afterCommand settings.registry s args
        = (directories.afterCommand settings.registry s.1 args, s.2)) ∧
    ∀ {σ : Type} (sys : System σ) name rest (w : World σ),
      settings.registry.lookup name = some .cd →
      (∃ answer, Shell.dispatch sys settings (name :: rest) w =
        ⟨[.entered (name :: rest)], answer, ⟨w.out, w.err,
          sys.afterCommand settings.registry w.system (name :: rest)⟩⟩) ∧
      ∃ reports answer err,
        Shell.execute sys settings (name :: rest) w =
          ⟨.entered (name :: rest) :: reports, answer, ⟨w.out, err,
            sys.afterCommand settings.registry w.system (name :: rest)⟩⟩ ∧
        ∀ e ∈ reports, (∃ bytes, e = .wrote .err bytes) ∨ ∃ f, e = .refused .err f := by
  have hsession : ∀ {σ : Type} (sys : System σ), sys.LeavesPlace → ∀ input (w : World σ),
      Replayed sys settings.registry w.system (run sys settings input w).world.system
        ((run sys settings input w).trace.lines.map words) (run sys settings input w).trace :=
    fun sys h input w => replayed_of_accounted h (accounted_run sys settings input w)
      (run_commands sys settings input w)
  have hcalls : ∀ {σ : Type} (sys : System σ), sys.LeavesPlace → ∀ calls (w : World σ),
      Replayed sys settings.registry w.system (Shell.runCalls sys settings calls w).world.system
        (calls.map Shell.Call.args) (Shell.runCalls sys settings calls w).trace :=
    fun sys h calls w => replayed_of_accounted h (Shell.accounts_runCalls sys settings calls w)
      (Shell.commands_runCalls sys settings calls w)
  refine ⟨fun sys h => ⟨hsession sys h, hcalls sys h⟩, fun directories launcher => ?_,
    fun sys name rest w h => ⟨?_, ?_⟩⟩
  · have hparts := System.leavesPlace_ofParts directories launcher
    exact ⟨fun input w => (hsession _ hparts input w).toLocated,
      fun calls w => (hcalls _ hparts calls w).toLocated,
      fun s args => System.afterCommand_ofParts s args⟩
  · exact Shell.exists_dispatch_cd sys settings h rest w
  · exact Shell.exists_execute_cd sys settings h rest w

/-- Directories that are known by their texts. One can go to all of them but one. -/
def signposts : Directories String where
  workingDirectory place := place
  changeDirectory path _ := if path = "gone" then .error .missing else .ok path

/-- A system on which a program makes the directories that its arguments name, and one can only go
to directories that were made. -/
def builders : System (List String × String) where
  workingDirectory s := s.2
  changeDirectory path s := if path ∈ s.1 then .ok (s.1, path) else .error .missing
  launch args s := ⟨[], .ok (), (s.1 ++ args.tail, s.2)⟩

/-- A registry in which `cd` has another name, and its own name ends the session. -/
def renamed : Settings := { registry := ⟨[("go", .cd), ("cd", .exit), ("cd", .cd)]⟩ }

/-- A change of directory, two that fail, a blank line, and a launch. -/
def wanderings : List Item := (Utf8.encode "go tmp x\ngo gone\ngo\n \nls\ncd up\n").map .byte

/-- A change to a directory that is made only afterwards, and the same change again. -/
def buildings : List Item := (Utf8.encode "go new\nmkdir new\ngo new\nls\n").map .byte

theorem located_wanderings :
    (let start : World (String × List LaunchRule) := ⟨{}, {}, ("home", [])⟩
      let ending := run (.ofParts signposts LaunchRule.launcher) renamed wanderings start
      renamed.registry.lookup "go" = some .cd ∧ ending.world.system.1 = "tmp" ∧
        ending.trace.launches = [(["ls"], "tmp")] ∧
        ∃ answer, Shell.dispatch (.ofParts signposts LaunchRule.launcher) renamed ["go", "gone"]
          start = ⟨[.entered ["go", "gone"]], answer, start⟩) ∧
    (let start : World (List String × String) := ⟨{}, {}, ([], "home")⟩
      let ending := run builders renamed buildings start
      builders.LeavesPlace ∧ ending.world.system = (["new"], "new") ∧
        ending.trace.launches = [(["mkdir", "new"], "home"), (["ls"], "new")]) ∧
    let start : World Machine := ⟨{}, {}, ⟨⟨⟨[]⟩, []⟩, [], [], true⟩⟩
    let ending := run Machine.system renamed wanderings start
    Machine.system.LeavesPlace ∧ ending.world.system
      = Machine.system.replay renamed.registry start.system ending.trace := by
  obtain ⟨hany, hparts, hcd⟩ := located renamed
  refine ⟨?_, ?_, ?_⟩
  · intro start ending
    have hlookup : renamed.registry.lookup "go" = some .cd := by decide
    refine ⟨hlookup, ?_, by decide +kernel, ?_⟩
    · rw [((hparts signposts LaunchRule.launcher).1 wanderings start).final]
      decide +kernel
    · obtain ⟨⟨answer, hanswer⟩, -⟩ :=
        hcd (.ofParts signposts LaunchRule.launcher) "go" ["gone"] start hlookup
      exact ⟨answer, hanswer⟩
  · intro start ending
    have hleaves : builders.LeavesPlace := fun _ _ => rfl
    refine ⟨hleaves, ?_, by decide +kernel⟩
    rw [((hany builders hleaves).1 buildings start).final]
    decide +kernel
  · intro start ending
    exact ⟨Machine.leavesPlace, ((hany Machine.system Machine.leavesPlace).1 wanderings start).final⟩

end Session
end CommandShell
