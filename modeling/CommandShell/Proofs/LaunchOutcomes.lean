import CommandShell.Proofs.Compositional
import CommandShell.Proofs.Observation
import CommandShell.Proofs.Sinks
import CommandShell.Rehearsal

/-!
# What the outcome of a launch changes

A launch may succeed or fail, and the program may write what it likes: the session goes on as if it
had not. To say so, a session is compared to its plan, a session with a launcher that does nothing
and always succeeds. The trace of a session is that of its plan, with the answers of the launcher
put in (`Trace.answered`, `Session.run_realizes`), so two sessions that differ in their launchers
have one plan, and differ in nothing else (`Session.run_launch_outcomes`).
-/

namespace CommandShell

variable {δ κ κ' : Type}

/-! ## Answers in a trace -/

namespace Trace

/-- The report of a launch, if it failed. -/
def reported (settings : Settings) : Except CommandError Unit → Trace
  | .ok () => []
  | .error e => [.wrote .err (Utf8.encode (settings.name ++ ": " ++ e.message ++ "\n"))]

/-- A trace in which every launch has the outcome that a launcher gives it, one launch after the
other, and its report directly after it if it failed. The state of the launcher comes along. -/
def answered (settings : Settings) (launcher : Launcher κ) : Trace → κ → Trace × κ
  | [], k => ([], k)
  | .launched args directory _ :: rest, k =>
    let done := launcher.launch args directory k
    let later := answered settings launcher rest done.after
    (.launched args directory done.output :: (reported settings done.answer ++ later.1), later.2)
  | e :: rest, k =>
    let later := answered settings launcher rest k
    (e :: later.1, later.2)

/-- A trace without what was written to the standard error, and without what programs wrote. -/
def withoutReports (trace : Trace) : Trace :=
  trace.filterMap fun
    | .wrote .err _ => none
    | .launched args directory _ => some (.launched args directory [])
    | e => some e

variable {settings : Settings} {launcher : Launcher κ}

theorem answered_append (first second : Trace) (k : κ) :
    (first ++ second).answered settings launcher k =
      ((first.answered settings launcher k).1
          ++ (second.answered settings launcher (first.answered settings launcher k).2).1,
        (second.answered settings launcher (first.answered settings launcher k).2).2) := by
  fun_induction answered settings launcher first k with
  | case1 k => rfl
  | case2 args directory output rest k done later ih =>
    simp only [List.cons_append, answered]
    rw [ih, List.append_assoc]
  | case3 e rest k hlaunch later ih =>
    rw [List.cons_append, answered, ih]
    · rfl
    · exact hlaunch

theorem withoutReports_append (first second : Trace) :
    (first ++ second).withoutReports = first.withoutReports ++ second.withoutReports := by
  rw [withoutReports, List.filterMap_append]
  rfl

theorem withoutReports_reported (settings : Settings) (answer : Except CommandError Unit) :
    (reported settings answer).withoutReports = [] := by
  cases answer <;> rfl

/-- The outcomes of launches show only in what programs write and in reports. -/
theorem withoutReports_answered (trace : Trace) (k : κ) :
    (trace.answered settings launcher k).1.withoutReports = trace.withoutReports := by
  fun_induction answered settings launcher trace k with
  | case1 k => rfl
  | case2 args directory output rest k done later ih =>
    have hrest : withoutReports (reported settings done.answer ++ later.1)
        = withoutReports rest := by
      rw [withoutReports_append, withoutReports_reported, List.nil_append, ih]
    exact congrArg (List.cons _) hrest
  | case3 e rest k hlaunch later ih =>
    calc withoutReports (e :: later.1)
        = withoutReports [e] ++ withoutReports later.1 := withoutReports_append [e] _
      _ = withoutReports [e] ++ withoutReports rest := congrArg _ ih
      _ = withoutReports (e :: rest) := (withoutReports_append [e] rest).symm

/-- Reports and what programs write are no part of the launches. -/
theorem launches_withoutReports (trace : Trace) :
    trace.withoutReports.launches = trace.launches := by
  induction trace with
  | nil => rfl
  | cons e rest ih =>
    have hfirst : launches (withoutReports [e]) = launches [e] := by
      rcases e with _ | ⟨_ | _, _⟩ | _ | _ | _ | _ | _ <;> rfl
    calc launches (withoutReports (e :: rest))
        = launches (withoutReports [e] ++ withoutReports rest) :=
          congrArg launches (withoutReports_append [e] rest)
      _ = launches [e] ++ launches rest := by rw [launches_append, hfirst, ih]
      _ = launches (e :: rest) := (launches_append [e] rest).symm

end Trace

/-! ## Worlds -/

namespace Sink

/-- Sinks on which no write fails, and on which the same flush fails. -/
structure Matched (s t : Sink) : Prop where
  unlimited : s.room = none
  unlimited' : t.room = none
  takes : s.pieceSize ≠ some 0
  takes' : t.pieceSize ≠ some 0
  flushes : s.flushes = t.flushes
  failingFlush : s.failingFlush = t.failingFlush

variable {s t : Sink}

theorem Matched.symm (h : s.Matched t) : t.Matched s :=
  ⟨h.unlimited', h.unlimited, h.takes', h.takes, h.flushes.symm, h.failingFlush.symm⟩

/-- Whatever is written to one of them, they stay matched. -/
theorem Matched.write (h : s.Matched t) (bytes : List UInt8) :
    ∃ s', s.write bytes = ⟨bytes, none, s'⟩ ∧ s'.Matched t := by
  obtain ⟨next, hw⟩ := write_of_unlimited h.unlimited h.takes bytes
  exact ⟨_, hw, h.unlimited, h.unlimited', h.takes, h.takes', h.flushes, h.failingFlush⟩

theorem Matched.flush (h : s.Matched t) : s.flush.1 = t.flush.1 ∧ s.flush.2.Matched t.flush.2 := by
  rw [Sink.flush, Sink.flush]
  refine ⟨?_, ?_⟩
  · simp only [h.failingFlush, h.flushes]
  · exact ⟨h.unlimited, h.unlimited', h.takes, h.takes', congrArg Nat.succ h.flushes,
      h.failingFlush⟩

end Sink

namespace World

/-- Worlds that differ in their launchers, and on the standard error in what may be written. -/
structure Matched (w : World (δ × κ)) (v : World (δ × κ')) : Prop where
  out : w.out = v.out
  err : w.err.Matched v.err
  place : w.system.1 = v.system.1

end World

/-! ## Actions and their plans -/

/-- The launcher that does nothing and always succeeds. -/
def Launcher.silent : Launcher Unit where
  launch _ _ _ := ⟨[], .ok (), ()⟩

namespace Action

variable {ε α : Type}

/-- An action does what its plan says: it ends in the same way, and its trace is that of the plan
with the answers of the launcher put in. -/
def Realizes (settings : Settings) (launcher : Launcher κ) (act : Action (δ × κ) ε α)
    (plan : Action (δ × Unit) ε α) : Prop :=
  ∀ w v, w.Matched v → (act w).answer = (plan v).answer ∧ (act w).world.Matched (plan v).world ∧
    (plan v).trace.answered settings launcher w.system.2
      = ((act w).trace, (act w).world.system.2)

theorem realizes_note (settings : Settings) (launcher : Launcher κ) {e : Event}
    (h : ∀ args directory output, e ≠ .launched args directory output) :
    Realizes settings launcher (note e : Action (δ × κ) ε Unit) (note e) := by
  intro w v hw
  refine ⟨rfl, hw, ?_⟩
  rw [note, Trace.answered]
  · rfl
  · exact h

theorem realizes_writeBytes (settings : Settings) (launcher : Launcher κ) (stream : Stream)
    (bytes : List UInt8) :
    Realizes settings launcher (writeBytes stream bytes : Action (δ × κ) Fault Unit)
      (writeBytes stream bytes) := by
  intro w v hw
  cases stream with
  | out =>
    have hsink : w.sink .out = v.sink .out := hw.out
    rw [writeBytes, writeBytes, hsink]
    cases ((v.sink .out).write bytes).fault? with
    | none => exact ⟨rfl, ⟨rfl, hw.err, hw.place⟩, rfl⟩
    | some f => exact ⟨rfl, ⟨rfl, hw.err, hw.place⟩, rfl⟩
  | err =>
    -- the two sinks may keep different bytes, but each takes all that is written now
    obtain ⟨s', hs, hmatched⟩ := hw.err.write bytes
    obtain ⟨t', ht, hmatched'⟩ := hmatched.symm.write bytes
    have hact : writeBytes .err bytes w = ⟨[.wrote .err bytes], .ok (), w.setSink .err s'⟩ := by
      rw [writeBytes, World.sink, hs]
    have hplan : writeBytes .err bytes v = ⟨[.wrote .err bytes], .ok (), v.setSink .err t'⟩ := by
      rw [writeBytes, World.sink, ht]
    rw [hact, hplan]
    exact ⟨rfl, ⟨hw.out, hmatched'.symm, hw.place⟩, rfl⟩

theorem realizes_flush (settings : Settings) (launcher : Launcher κ) (stream : Stream) :
    Realizes settings launcher (flush stream : Action (δ × κ) Fault Unit) (flush stream) := by
  intro w v hw
  cases stream with
  | out =>
    have hsink : w.sink .out = v.sink .out := hw.out
    simp only [flush, hsink]
    exact ⟨trivial, ⟨rfl, hw.err, hw.place⟩, rfl⟩
  | err =>
    obtain ⟨hfault, hmatched⟩ := hw.err.flush
    have hsink : (w.sink .err).flush.1 = (v.sink .err).flush.1 := hfault
    simp only [flush, hsink]
    exact ⟨trivial, ⟨hw.out, hmatched, hw.place⟩, rfl⟩

theorem parallel_realizes (settings : Settings) (launcher : Launcher κ) :
    Parallel fun {ε α : Type} (act : Action (δ × κ) ε α) (plan : Action (δ × Unit) ε α) =>
      Realizes settings launcher act plan where
  pure _ _ _ hw := ⟨rfl, hw, rfl⟩
  fail _ _ _ hw := ⟨rfl, hw, rfl⟩
  follow hfirst hnext w v hw := by
    -- both go on with the same answer, so the plan has one continuation for them
    obtain ⟨hanswer, hworld, htrace⟩ := hfirst w v hw
    rw [follow, follow, hanswer, Trace.answered_append, htrace]
    obtain ⟨hanswer', hworld', htrace'⟩ := hnext _ _ _ hworld
    refine ⟨hanswer', hworld', ?_⟩
    rw [htrace']
  prompting := realizes_note settings launcher (by simp)
  read _ := realizes_note settings launcher (by simp)
  writeBytes := realizes_writeBytes settings launcher
  flush := realizes_flush settings launcher

/-- Both go to the same places. -/
theorem realizes_changeDirectory (settings : Settings) (directories : Directories δ)
    (launcher : Launcher κ) (path : String) :
    Realizes settings launcher (changeDirectory (.ofParts directories launcher) path)
      (changeDirectory (.ofParts directories .silent) path) := by
  intro w v hw
  simp only [changeDirectory, System.ofParts, hw.place]
  cases directories.changeDirectory path v.system.1 with
  | error f => exact ⟨rfl, hw, rfl⟩
  | ok there => exact ⟨rfl, ⟨hw.out, hw.err, rfl⟩, rfl⟩

/-- Goes on with an answer, or with the error in its place. -/
def either {σ ε ε' α β : Type} (next : α → Action σ ε' β) (handle : ε → Action σ ε' β) :
    Except ε α → Action σ ε' β
  | .ok a => next a
  | .error e => handle e

/-- An error is handled in the same way wherever it comes from. -/
theorem recover_bind {σ ε ε' α β : Type} (first : Action σ ε α) (next : α → Action σ ε β)
    (handle : ε → Action σ ε' β) :
    (first.bind next).recover handle
      = first.follow (either (fun a => (next a).recover handle) handle) := by
  funext w
  cases ha : (first w).answer with
  | error e =>
    have hbind : first.bind next w = _ := bind_of_error ha
    rw [recover_of_error (by rw [hbind]), hbind, follow, ha]
    rfl
  | ok a =>
    have hbind : first.bind next w = _ := bind_of_ok ha
    simp only [follow, ha, either]
    cases hb : (next a (first w).world).answer with
    | ok b =>
      rw [recover_of_ok (by rw [hbind, hb]), hbind, recover_of_ok hb]
    | error e =>
      rw [recover_of_error (by rw [hbind, hb]), hbind, recover_of_error hb, List.append_assoc]

theorem recover_pure {σ ε ε' α : Type} (a : α) (handle : ε → Action σ ε' α) :
    (Action.pure a).recover handle = Action.pure a := rfl

/-- What a shell does about the failure of a command. -/
def handle {σ : Type} (settings : Settings) (e : CommandError) : Action σ Fault Flow :=
  (writeLine .err (Shell.report settings e)).bind fun _ => Action.pure .goOn

/-- A launch, and its report if it fails. -/
def attempt {σ : Type} (sys : System σ) (settings : Settings) (args : List String) :
    Action σ Fault Flow :=
  (launch sys args).follow (either (fun _ => Action.pure .goOn) (handle settings))

theorem attempt_of_ok {σ : Type} {sys : System σ} {settings : Settings} {args : List String}
    {w : World σ} (h : (sys.launch args w.system).answer = .ok ()) :
    attempt sys settings args w =
      ⟨[.launched args (sys.workingDirectory w.system) (sys.launch args w.system).output],
        .ok .goOn, { w with system := (sys.launch args w.system).after }⟩ := by
  simp only [attempt, follow, launch, h, either]
  rfl

theorem attempt_of_error {σ : Type} {sys : System σ} {settings : Settings} {args : List String}
    {w : World σ} {e : CommandError} {s : Sink}
    (h : (sys.launch args w.system).answer = .error e)
    (hs : w.err.write (Utf8.encode (Shell.report settings e ++ "\n"))
      = ⟨Utf8.encode (Shell.report settings e ++ "\n"), none, s⟩) :
    attempt sys settings args w =
      ⟨[.launched args (sys.workingDirectory w.system) (sys.launch args w.system).output,
          .wrote .err (Utf8.encode (Shell.report settings e ++ "\n"))],
        .ok .goOn, ⟨w.out, s, (sys.launch args w.system).after⟩⟩ := by
  have hreport : writeLine .err (Shell.report settings e)
      { w with system := (sys.launch args w.system).after }
      = ⟨[.wrote .err (Utf8.encode (Shell.report settings e ++ "\n"))], .ok (),
          ⟨w.out, s, (sys.launch args w.system).after⟩⟩ := by
    simp only [writeLine, write, writeBytes, World.sink, hs]
    rfl
  simp only [attempt, follow, launch, h, either, handle, bind_of_eq_ok hreport]
  rfl

variable (settings : Settings) (directories : Directories δ) (launcher : Launcher κ)

/-- A launch that fails is reported, and ends as one that succeeds. -/
theorem realizes_attempt (args : List String) :
    Realizes settings launcher (attempt (.ofParts directories launcher) settings args)
      (attempt (.ofParts directories .silent) settings args) := by
  intro w v hw
  have hplan : attempt (.ofParts directories .silent) settings args v
      = ⟨[.launched args (directories.workingDirectory v.system.1) []], .ok .goOn, v⟩ :=
    attempt_of_ok rfl
  rw [hplan]
  cases ha : ((System.ofParts directories launcher).launch args w.system).answer with
  | ok u =>
    have hdone : (launcher.launch args (directories.workingDirectory w.system.1)
        w.system.2).answer = .ok u := ha
    rw [attempt_of_ok ha]
    refine ⟨rfl, ⟨hw.out, hw.err, hw.place⟩, ?_⟩
    simp only [← hw.place, Trace.answered, hdone, Trace.reported]
    rfl
  | error e =>
    have hdone : (launcher.launch args (directories.workingDirectory w.system.1)
        w.system.2).answer = .error e := ha
    obtain ⟨s, hs, hmatched⟩ := hw.err.write (Utf8.encode (Shell.report settings e ++ "\n"))
    rw [attempt_of_error ha hs]
    refine ⟨rfl, ⟨hw.out, hmatched, hw.place⟩, ?_⟩
    simp only [← hw.place, Trace.answered, hdone, Trace.reported]
    rfl

end Action

/-! ## Commands and turns -/

namespace Shell

open CommandShell.Action (Realizes parallel_realizes)

variable (settings : Settings) (directories : Directories δ) (launcher : Launcher κ)

/-- A command that is no builtin. Its failures are handled where they arise, so that the answer of
the launcher goes no further than its attempt. -/
theorem execute_eq_attempt {σ : Type} (sys : System σ) {settings : Settings} {name : String}
    (h : settings.registry.lookup name = none) (rest : List String) :
    execute sys settings (name :: rest) =
      (Action.note (.entered (name :: rest))).follow (Action.either
        (fun _ => ((Action.flush .out).mapError .stream).follow (Action.either
          (fun _ => Action.attempt sys settings (name :: rest)) (Action.handle settings)))
        (Action.handle settings)) := by
  have hdispatch : dispatch sys settings (name :: rest)
      = (Action.note (.entered (name :: rest))).bind fun _ =>
          ((Action.flush .out).mapError .stream).bind fun _ =>
            (Action.launch sys (name :: rest)).bind fun _ => Action.pure .goOn := by
    rw [dispatch, h]
    rfl
  have hexecute : execute sys settings (name :: rest)
      = (dispatch sys settings (name :: rest)).recover (Action.handle settings) := rfl
  simp only [hexecute, hdispatch, Action.recover_bind, Action.recover_pure, Action.attempt]

/-- A command does what its plan says, whatever the launcher makes of it. -/
theorem realizes_execute (args : List String) :
    Realizes settings launcher (execute (.ofParts directories launcher) settings args)
      (execute (.ofParts directories .silent) settings args) := by
  have hlaw := parallel_realizes (δ := δ) settings launcher
  have hreport : ∀ e,
      Realizes settings launcher (Action.handle settings e : Action (δ × κ) Fault Flow)
        (Action.handle settings e) := fun e =>
    hlaw.bind (hlaw.writeBytes .err _) fun _ => hlaw.pure _
  have hentered : Realizes settings launcher
      (Action.note (.entered args) : Action (δ × κ) CommandError Unit)
      (Action.note (.entered args)) := Action.realizes_note settings launcher (by simp)
  cases args with
  | nil => exact hlaw.pure _
  | cons name rest =>
    cases h : settings.registry.lookup name with
    | some command =>
      -- a builtin launches nothing
      refine hlaw.execute _ _ (hlaw.dispatch _ _ hentered (fun _ => ?_) fun hnone => ?_)
      · exact Action.realizes_changeDirectory settings directories launcher
      · rw [h] at hnone
        cases hnone
    | none =>
      -- the plan of a launch is known only together with its report
      rw [execute_eq_attempt _ h, execute_eq_attempt _ h]
      refine hlaw.follow hentered fun answer => ?_
      cases answer with
      | error e => exact hreport e
      | ok u =>
        refine hlaw.follow (hlaw.mapError _ (hlaw.flush .out)) fun answer => ?_
        cases answer with
        | error e => exact hreport e
        | ok u => exact Action.realizes_attempt settings directories launcher (name :: rest)

end Shell

namespace Session

open Input (Item)

variable (settings : Settings) (directories : Directories δ) (launcher : Launcher κ)

/-- A turn does what the plan says. -/
structure Turn.Realizes (launcher : Launcher κ) (k : κ) (t : Turn (δ × κ))
    (plan : Turn (δ × Unit)) : Prop where
  verdict : t.verdict = plan.verdict
  unread : t.unread = plan.unread
  world : t.world.Matched plan.world
  trace : plan.trace.answered settings launcher k = (t.trace, t.world.system.2)

theorem turn_realizes (input : List Item) {w : World (δ × κ)} {v : World (δ × Unit)}
    (hw : w.Matched v) :
    (turn (.ofParts directories launcher) settings input w).Realizes settings launcher w.system.2
      (turn (.ofParts directories .silent) settings input v) := by
  have hlaw := Action.parallel_realizes (δ := δ) settings launcher
  obtain ⟨hanswer, hworld, htrace⟩ := hlaw.greet settings w v hw
  rcases hg : greet settings w with ⟨events, answer, w₁⟩
  rcases hp : greet settings v with ⟨planned, answer', v₁⟩
  rw [hg, hp] at hanswer hworld htrace
  obtain rfl : answer = answer' := hanswer
  cases answer with
  | error e =>
    rw [turn_of_greet_error hg, turn_of_greet_error hp]
    exact ⟨rfl, rfl, hworld, htrace⟩
  | ok u =>
    obtain ⟨hanswer, hworld, hlater⟩ :=
      hlaw.afterRead _ _ (Shell.realizes_execute settings directories launcher)
        (Input.readLine input).reading w₁ v₁ hworld
    rw [turn_of_greet_ok hg, turn_of_greet_ok hp]
    refine ⟨congrArg Verdict.ofFlow hanswer, rfl, hworld, ?_⟩
    -- the read is in both traces
    simp only [Trace.answered_append, htrace, Trace.answered, hlater]

/-- A session does what its plan says. -/
structure Ending.Realizes (launcher : Launcher κ) (k : κ) (ending : Ending (δ × κ))
    (plan : Ending (δ × Unit)) : Prop where
  answer : ending.answer = plan.answer
  unread : ending.unread = plan.unread
  world : ending.world.Matched plan.world
  trace : plan.trace.answered settings launcher k = (ending.trace, ending.world.system.2)

theorem run_realizes (input : List Item) (w : World (δ × κ)) {v : World (δ × Unit)}
    (hw : w.Matched v) :
    (run (.ofParts directories launcher) settings input w).Realizes settings launcher w.system.2
      (run (.ofParts directories .silent) settings input v) := by
  induction input, w using run_induction (.ofParts directories launcher) settings
    generalizing v with
  | last input w hgo =>
    have ht := turn_realizes settings directories launcher input hw
    cases hv : (turn (.ofParts directories launcher) settings input w).verdict with
    | goOn => exact absurd hv hgo
    | ended =>
      rw [run_of_ended hv, run_of_ended (ht.verdict.symm.trans hv)]
      exact ⟨rfl, ht.unread, ht.world, ht.trace⟩
    | failed e =>
      rw [run_of_failed hv, run_of_failed (ht.verdict.symm.trans hv)]
      exact ⟨rfl, ht.unread, ht.world, ht.trace⟩
  | next input w hgo ih =>
    have ht := turn_realizes settings directories launcher input hw
    have hlater := ih ht.world
    rw [ht.unread] at hlater
    rw [run_of_goOn hgo, run_of_goOn (ht.verdict.symm.trans hgo), ht.unread]
    refine ⟨hlater.answer, hlater.unread, hlater.world, ?_⟩
    simp only [Ending.after, Trace.answered_append, ht.trace, hlater.trace]

/-- Two sessions that differ in their launchers, and on the standard error in what was written
before, as long as its writes succeed and its flushes end in the same way. They end in the same way
and in the same place, with the same input unread and the same standard output, and do the same in
the same order but for what programs write and for the reports: each makes the launches of one
plan, and each launch that fails has its own report directly after it. -/
theorem run_launch_outcomes (settings : Settings) (directories : Directories δ)
    (launcher : Launcher κ) (launcher' : Launcher κ') (input : List Item) (place : δ) (k : κ)
    (k' : κ') (out err err' : Sink) (herr : err.Matched err') :
    let ending := run (.ofParts directories launcher) settings input ⟨out, err, (place, k)⟩
    let ending' := run (.ofParts directories launcher') settings input ⟨out, err', (place, k')⟩
    ending.answer = ending'.answer ∧ ending.world.system.1 = ending'.world.system.1 ∧
      ending.unread = ending'.unread ∧ ending.world.out = ending'.world.out ∧
      ending.trace.launches = ending'.trace.launches ∧
      ending.trace.withoutReports = ending'.trace.withoutReports ∧
      ∃ plan : Trace, (plan.answered settings launcher k).1 = ending.trace ∧
        (plan.answered settings launcher' k').1 = ending'.trace := by
  intro ending ending'
  -- both have the plan of a session on the first of the two streams
  let planned : World (δ × Unit) := ⟨out, err, (place, ())⟩
  have hself : err.Matched err :=
    ⟨herr.unlimited, herr.unlimited, herr.takes, herr.takes, rfl, rfl⟩
  have hw : World.Matched ⟨out, err, (place, k)⟩ planned := ⟨rfl, hself, rfl⟩
  have hw' : World.Matched ⟨out, err', (place, k')⟩ planned := ⟨rfl, herr.symm, rfl⟩
  have h := run_realizes settings directories launcher input _ hw
  have h' := run_realizes settings directories launcher' input _ hw'
  let plan := (run (.ofParts directories .silent) settings input planned).trace
  have htrace : (plan.answered settings launcher k).1 = ending.trace := congrArg Prod.fst h.trace
  have htrace' : (plan.answered settings launcher' k').1 = ending'.trace :=
    congrArg Prod.fst h'.trace
  have hsame : ending.trace.withoutReports = ending'.trace.withoutReports := by
    rw [← htrace, ← htrace', Trace.withoutReports_answered, Trace.withoutReports_answered]
  have hlaunches : ending.trace.launches = ending'.trace.launches := by
    rw [← Trace.launches_withoutReports, hsame, Trace.launches_withoutReports]
  exact ⟨h.answer.trans h'.answer.symm, h.world.place.trans h'.world.place.symm,
    h.unread.trans h'.unread.symm, h.world.out.trans h'.world.out.symm, hlaunches, hsame, plan,
    htrace, htrace'⟩

/-- Two launches with a refused command between them. -/
def launchesAndRefusal : List Item := (Utf8.encode "ls\ncd\nls -l\n").map .byte

/-- A world in which the launches of a program end as the rules say. -/
def ruledWorld (rules : List LaunchRule) : World Rehearsal := ⟨{}, {}, (⟨⟨[]⟩, []⟩, rules)⟩

theorem run_launch_outcomes_killed :
    let killed := run Rehearsal.system {} launchesAndRefusal
      (ruledWorld [⟨"ls", .terminated "ls" 9, false⟩])
    let spared := run Rehearsal.system {} launchesAndRefusal (ruledWorld [])
    ({} : Sink).Matched {} ∧ killed.trace.launches = spared.trace.launches ∧
      killed.trace.withoutReports = spared.trace.withoutReports ∧
      spared.trace.launches = [(["ls"], "/"), (["ls", "-l"], "/")] ∧
      killed.trace.written .err ≠ spared.trace.written .err := by
  intro killed spared
  have herr : ({} : Sink).Matched {} := ⟨rfl, rfl, by decide, by decide, rfl, rfl⟩
  obtain ⟨-, -, -, -, hlaunches, hsame, -⟩ := run_launch_outcomes {} Standing.directories
    LaunchRule.launcher LaunchRule.launcher launchesAndRefusal ⟨⟨[]⟩, []⟩
    [⟨"ls", .terminated "ls" 9, false⟩] [] {} {} {} herr
  refine ⟨herr, hlaunches, hsame, ?_, ?_⟩
  · decide +kernel
  · decide +kernel

end Session
end CommandShell
