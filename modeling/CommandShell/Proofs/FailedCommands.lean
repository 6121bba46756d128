import CommandShell.Proofs.Courses
import CommandShell.Proofs.Rebuilding
import CommandShell.Proofs.Sinks

/-!
# Commands that fail

Whether a command fails, and with which error, is decided by its arguments and by the world it
starts in: by the first entry with its name, by what the system makes of a directory or of a
program, and by how far standard output takes a text or a flush. `Shell.Fails` has a constructor
for every reason, and `Shell.dispatch_error_iff` says that a command fails exactly for these.
-/

namespace CommandShell

variable {σ : Type}

namespace Action

/-- Lines that are written one after the other fail as their text fails as a whole. -/
theorem writeLines_error_iff {stream : Stream} {lines : List String} {w : World σ} {f : Fault} :
    (writeLines stream lines w).answer = .error f ↔
      ((w.sink stream).write (Input.written lines)).fault? = some f := by
  induction lines generalizing w with
  | nil =>
    have hnothing : Input.written [] = [] := rfl
    simp [writeLines, Action.pure, hnothing]
  | cons line rest ih =>
    have hwritten : Input.written (line :: rest)
        = Utf8.encode (line ++ "\n") ++ Input.written rest := List.flatMap_cons
    have hsink : (writeLine stream line w).world.sink stream
        = ((w.sink stream).write (Utf8.encode (line ++ "\n"))).sink := by
      rw [writeLine, write, writeBytes_world, World.sink_setSink]
    -- the first line fails, or it is taken and the others fail after it
    have hfirst : (writeLine stream line w).answer = .error f ↔ _ := writeBytes_error_iff
    have htaken : (writeLine stream line w).answer = .ok () ↔ _ := writeBytes_ok_iff
    rw [writeLines, bind_error_iff, hwritten, Sink.fault?_write_append, Option.or_eq_some_iff,
      hfirst, ← hsink]
    simp only [ih, htaken, exists_const]

end Action

namespace Builtin

variable {sys : System σ} {w : World σ} {e : CommandError}

theorem runCd_error_iff {name path : String} {others : List String} :
    (runCd sys (name :: path :: others) w).answer = .error e ↔
      ∃ f, sys.changeDirectory path w.system = .error f ∧ e = .changeDirectory path f := by
  simp only [runCd, Action.bind_eq, Action.pure_eq, Action.bind_pure_error_iff,
    Action.mapError_error_iff, Action.changeDirectory_error_iff]

theorem runHelp_error_iff {registry : Registry} :
    (runHelp registry w).answer = .error e ↔
      ∃ f, (w.out.write (Input.written (helpLines registry))).fault? = some f ∧
        e = .stream f := by
  simp only [runHelp, Action.bind_eq, Action.pure_eq, Action.bind_pure_error_iff,
    Action.mapError_error_iff, Action.writeLines_error_iff]
  rfl

end Builtin

namespace Shell

variable {sys : System σ} {settings : Settings} {w : World σ} {args : List String}
  {e : CommandError}

theorem launch_error_iff :
    (launch sys args w).answer = .error e ↔
      (∃ f, w.out.flush.1 = some f ∧ e = .stream f) ∨
        w.out.flush.1 = none ∧ (sys.launch args w.system).answer = .error e := by
  have hsystem : (Action.flush .out w).world.system = w.system := World.setSink_system _ _ _
  have hlaunch : (Action.launch sys args (Action.flush .out w).world).answer
      = (sys.launch args w.system).answer := by
    rw [← hsystem]
    rfl
  rw [launch, Action.bind_eq, Action.bind_error_iff, Action.mapError_error_iff]
  refine or_congr ?_ ?_
  · simp only [Action.flush_error_iff]
    rfl
  · simp only [Action.bind_eq, Action.pure_eq, Action.bind_pure_error_iff, Action.mapError_ok_iff]
    constructor
    · rintro ⟨u, hflushed, hfailed⟩
      exact ⟨Action.flush_ok_iff.1 hflushed, hlaunch.symm.trans hfailed⟩
    · rintro ⟨hflushed, hfailed⟩
      exact ⟨(), Action.flush_ok_iff.2 hflushed, hlaunch.trans hfailed⟩

/-- The reasons for which a command fails in a world, each with its error. -/
inductive Fails (sys : System σ) (settings : Settings) (w : World σ) :
    List String → CommandError → Prop
  /-- A `cd` that does not say where to. -/
  | cdNowhere {name : String} (found : settings.registry.lookup name = some .cd) :
    Fails sys settings w [name] (.missingArgument "cd")
  /-- A `cd` to where one cannot go. -/
  | cdRefused {name path : String} {others : List String} {f : Fault}
    (found : settings.registry.lookup name = some .cd)
    (refused : sys.changeDirectory path w.system = .error f) :
    Fails sys settings w (name :: path :: others) (.changeDirectory path f)
  /-- A `help` whose text does not fit on standard output. -/
  | helpCut {name : String} {others : List String} {f : Fault}
    (found : settings.registry.lookup name = some .help)
    (cut : (w.out.write (Input.written (Builtin.helpLines settings.registry))).fault? = some f) :
    Fails sys settings w (name :: others) (.stream f)
  /-- A program before whose launch standard output cannot be flushed. -/
  | unflushed {name : String} {others : List String} {f : Fault}
    (missing : settings.registry.lookup name = none) (failed : w.out.flush.1 = some f) :
    Fails sys settings w (name :: others) (.stream f)
  /-- A program whose launch fails after that flush. -/
  | launchFailed {name : String} {others : List String} {e : CommandError}
    (missing : settings.registry.lookup name = none) (flushed : w.out.flush.1 = none)
    (failed : (sys.launch (name :: others) w.system).answer = .error e) :
    Fails sys settings w (name :: others) e

/-- A command fails exactly if there is a reason for it, and with the error of this reason. -/
theorem dispatch_error_iff :
    (dispatch sys settings args w).answer = .error e ↔ Fails sys settings w args e := by
  constructor
  · intro h
    cases args with
    | nil => cases h
    | cons name others =>
      cases hl : settings.registry.lookup name with
      | none =>
        rw [dispatch_launch hl] at h
        rcases launch_error_iff.1 h with ⟨f, hflush, rfl⟩ | ⟨hflush, hlaunch⟩
        · exact .unflushed hl hflush
        · exact .launchFailed hl hflush hlaunch
      | some builtin =>
        rw [dispatch_builtin hl] at h
        cases builtin with
        | exit => cases h
        | help =>
          obtain ⟨f, hcut, rfl⟩ := Builtin.runHelp_error_iff.1 h
          exact .helpCut hl hcut
        | cd =>
          cases others with
          | nil =>
            cases h
            exact .cdNowhere hl
          | cons path others =>
            obtain ⟨f, hrefused, rfl⟩ := Builtin.runCd_error_iff.1 h
            exact .cdRefused hl hrefused
  · intro h
    cases h with
    | cdNowhere found => rw [dispatch_builtin found]; rfl
    | cdRefused found refused =>
      rw [dispatch_builtin found]
      exact Builtin.runCd_error_iff.2 ⟨_, refused, rfl⟩
    | helpCut found cut =>
      rw [dispatch_builtin found]
      exact Builtin.runHelp_error_iff.2 ⟨_, cut, rfl⟩
    | unflushed missing failed =>
      rw [dispatch_launch missing]
      exact launch_error_iff.2 (Or.inl ⟨_, failed, rfl⟩)
    | launchFailed missing flushed failed =>
      rw [dispatch_launch missing]
      exact launch_error_iff.2 (Or.inr ⟨flushed, failed⟩)

end Shell
end CommandShell
