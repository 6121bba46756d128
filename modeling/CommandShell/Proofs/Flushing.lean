import CommandShell.Proofs.Histories
import CommandShell.Rehearsal

/-!
# Nothing is pending while the shell waits

The shell hands control to others in two places: when it reads, and when it launches a program.
Both are reached only after every byte that a stream took was followed by a flush of that stream
that worked. Before a read this is the doing of the greeting alone, whatever came before it;
before a launch only standard output needs another flush, since no command writes to standard
error (`Shell.Course.each_waits`).
-/

namespace CommandShell

open CommandShell.Action (lineWritten)

namespace Trace

/-! ## Settled streams -/

/-- Every byte that a stream took was followed by a flush of this stream that worked. -/
def Settled (stream : Stream) (trace : Trace) : Prop :=
  ∀ x bytes y, trace = x ++ .wrote stream bytes :: y → bytes ≠ [] → .flushed stream none ∈ y

/-- An event in a trace with one more event is that event, or stands before it. -/
theorem eq_of_concat_eq {trace x y : Trace} {last e : Event}
    (h : trace ++ [last] = x ++ e :: y) :
    last = e ∨ ∃ y', y = y' ++ [last] ∧ trace = x ++ e :: y' := by
  rcases List.eq_nil_or_concat y with rfl | ⟨y', last', rfl⟩
  · exact Or.inl (List.cons.inj (List.append_inj' h rfl).2).1
  · right
    rw [List.concat_eq_append, ← List.cons_append, ← List.append_assoc] at h
    obtain ⟨htrace, hlast⟩ := List.append_inj' h rfl
    rw [List.concat_eq_append, ← hlast]
    exact ⟨y', rfl, htrace⟩

theorem settled_flushed (stream : Stream) (trace : Trace) :
    Settled stream (trace ++ [.flushed stream none]) := by
  intro x bytes y h _
  rcases eq_of_concat_eq h with h | ⟨y', rfl, _⟩
  · cases h
  · simp

theorem Settled.concat {stream : Stream} {trace : Trace} {e : Event}
    (hs : Settled stream trace) (he : ∀ bytes, e ≠ .wrote stream bytes) :
    Settled stream (trace ++ [e]) := by
  intro x bytes y h hne
  rcases eq_of_concat_eq h with h | ⟨y', rfl, htrace⟩
  · exact absurd h (he bytes)
  · exact List.mem_append_left _ (hs x bytes y' htrace hne)

end Trace

/-! ## Waiting -/

/-- In this event the shell waits for its input or for a program. -/
def Event.Waits : Event → Prop
  | .read _ => True
  | .launched _ _ _ => True
  | _ => False

/-- An event in which the shell waits finds both streams settled. -/
def WaitsSettled (before : Trace) (e : Event) (_ : Trace) : Prop :=
  e.Waits → ∀ stream, Trace.Settled stream before

theorem each_of_not_waits {before trace after : Trace} (h : ∀ e ∈ trace, ¬ e.Waits) :
    Trace.Each WaitsSettled before trace after :=
  Trace.each_of_forall fun e he _ _ hw => absurd hw (h e he)

theorem not_waits_of_mem_lines {stream : Stream} {lines : List String} {e : Event}
    (h : e ∈ lines.map (lineWritten stream)) : ¬ e.Waits := by
  obtain ⟨line, -, rfl⟩ := List.mem_map.1 h
  exact id

/-- A command that starts with a settled standard error waits with both streams settled. -/
theorem Shell.Course.each_waits {settings : Settings} {args : List String} {events : Trace}
    {answer : Except CommandError Flow} (h : Shell.Course settings args events answer)
    {before : Trace} (herr : Trace.Settled .err before) (after : Trace) :
    Trace.Each WaitsSettled before events after := by
  -- the flush before a launch settles standard output, and nothing was written to the other
  have hlaunch : ∀ (v : List String) directory output,
      Trace.Each WaitsSettled before
        [.entered v, .flushed .out none, .launched v directory output] after := by
    intro v directory output
    refine ⟨fun hw => hw.elim, fun hw => hw.elim, fun _ stream => ?_, trivial⟩
    cases stream with
    | out => exact Trace.settled_flushed .out _
    | err => exact (herr.concat (by simp)).concat (by simp)
  cases h with
  | blank => trivial
  | exit => exact ⟨fun hw => hw.elim, trivial⟩
  | cd => exact ⟨fun hw => hw.elim, trivial⟩
  | cdFailed => exact ⟨fun hw => hw.elim, trivial⟩
  | help => exact ⟨fun hw => hw.elim, each_of_not_waits fun e he => not_waits_of_mem_lines he⟩
  | helpCut =>
    refine ⟨fun hw => hw.elim, Trace.each_append.2 ⟨?_, ?_⟩⟩
    · exact each_of_not_waits fun e he => not_waits_of_mem_lines he
    · exact ⟨fun hw => hw.elim, fun hw => hw.elim, trivial⟩
  | unflushed => exact ⟨fun hw => hw.elim, fun hw => hw.elim, trivial⟩
  | launched => exact hlaunch _ _ _
  | launchFailed => exact hlaunch _ _ _

theorem Shell.Told.each_waits {settings : Settings} {args : List String} {events : Trace}
    {answer : Except Fault Flow} (h : Shell.Told settings args events answer)
    {before : Trace} (herr : Trace.Settled .err before) (after : Trace) :
    Trace.Each WaitsSettled before events after := by
  cases h with
  | done course => exact course.each_waits herr after
  | reported course =>
    exact Trace.each_append.2 ⟨course.each_waits herr _, fun hw => hw.elim, trivial⟩
  | unreported course =>
    exact Trace.each_append.2
      ⟨course.each_waits herr _, fun hw => hw.elim, fun hw => hw.elim, trivial⟩

namespace Session

variable {σ : Type} {settings : Settings}

/-- A greeting settles both streams, whatever was written before it. -/
theorem settled_greeting (settings : Settings) (before : Trace) (stream : Stream) :
    Trace.Settled stream (before ++ greeting settings) := by
  have hsplit : before ++ greeting settings
      = before ++ [.prompting, .wrote .out (Utf8.encode settings.prompt)] ++ [.flushed .out none]
        ++ [.flushed .err none] := by
    simp [greeting]
  rw [hsplit]
  cases stream with
  | out => exact (Trace.settled_flushed .out _).concat (by simp)
  | err => exact Trace.settled_flushed .err _

/-- After a greeting, a read and what follows it wait with settled streams if a stretch after the
read does. -/
theorem each_waits_greeting {items : List Input.Item} {before events after : Trace}
    (h : ∀ before, Trace.Settled .err before → Trace.Each WaitsSettled before events after) :
    Trace.Each WaitsSettled before (greeting settings ++ .read items :: events) after := by
  rw [Trace.each_append]
  refine ⟨each_of_not_waits (by simp [greeting, Event.Waits]),
    fun _ stream => settled_greeting settings before stream, h _ ?_⟩
  exact (settled_greeting settings before .err).concat (by simp)

theorem Course.each_waits {events : Trace} {verdict : Verdict}
    (h : Course settings events verdict) {before after : Trace} :
    Trace.Each WaitsSettled before events after := by
  cases h with
  | ungreeted course =>
    apply each_of_not_waits
    cases course <;> simp [Event.Waits]
  | unread => exact each_waits_greeting fun _ _ => trivial
  | farewell => exact each_waits_greeting fun _ _ => ⟨fun hw => hw.elim, trivial⟩
  | farewellCut =>
    exact each_waits_greeting fun _ _ => ⟨fun hw => hw.elim, fun hw => hw.elim, trivial⟩
  | untold _ told => exact each_waits_greeting fun _ herr => told.each_waits herr _
  | unflushed _ told =>
    exact each_waits_greeting fun _ herr =>
      Trace.each_append.2 ⟨told.each_waits herr _, fun hw => hw.elim, trivial⟩
  | obeyed _ told =>
    exact each_waits_greeting fun _ herr =>
      Trace.each_append.2 ⟨told.each_waits herr _, fun hw => hw.elim, trivial⟩

end Session

/-! ## Launches that a flush keeps back -/

namespace Shell

/-- What comes after the flush that kept a launch back: the report of that fault, the flush after
the command, and at most another turn; or a part of the report, and nothing else. -/
inductive Withheld (settings : Settings) (f : Fault) : Trace → Prop
  | last {fault? : Option Fault} :
    Withheld settings f
      [lineWritten .err (report settings (.stream f)), .flushed .out fault?]
  | next {fault? : Option Fault} {rest : Trace} :
    Withheld settings f
      (lineWritten .err (report settings (.stream f)) :: .flushed .out fault?
        :: .prompting :: rest)
  | cut {taken : List UInt8} {g : Fault}
    (part : taken <+: Utf8.encode (report settings (.stream f) ++ "\n"))
    (short : taken.length < (Utf8.encode (report settings (.stream f) ++ "\n")).length) :
    Withheld settings f [.wrote .err taken, .refused .err g]

/-- A command that is no builtin and whose flush fails is withheld. -/
def FlushedFirst (settings : Settings) (_ : Trace) (e : Event) (after : Trace) : Prop :=
  ∀ name args f rest, e = .entered (name :: args) → after = .flushed .out (some f) :: rest →
    settings.registry.lookup name = none → Withheld settings f rest

theorem each_of_not_entered {settings : Settings} {before trace after : Trace}
    (h : ∀ e ∈ trace, ∀ args, e ≠ .entered args) :
    Trace.Each (FlushedFirst settings) before trace after :=
  Trace.each_of_forall fun e he _ _ _ _ _ _ heq => absurd heq (h e he _)

theorem lines_not_entered {stream : Stream} {lines : List String} :
    ∀ e ∈ lines.map (lineWritten stream), ∀ args, e ≠ .entered args := by
  intro e he args
  obtain ⟨line, -, rfl⟩ := List.mem_map.1 he
  exact Event.noConfusion

/-- What comes after the events of a command decides whether its launch was withheld. -/
theorem Course.each_flushedFirst {settings : Settings} {args : List String} {events : Trace}
    {answer : Except CommandError Flow} (h : Course settings args events answer)
    (before : Trace) {after : Trace}
    (hafter : ∀ f, answer = .error (.stream f) → Withheld settings f after) :
    Trace.Each (FlushedFirst settings) before events after := by
  -- a name that was found is not one of a program
  have hfound : ∀ {name args builtin before rest},
      settings.registry.lookup name = some builtin →
      FlushedFirst settings before (.entered (name :: args)) rest := by
    intro name args builtin before rest hl name' args' f rest' he _ hnone
    cases he
    rw [hl] at hnone
    cases hnone
  cases h with
  | blank => trivial
  | exit found => exact ⟨hfound found, trivial⟩
  | cd found => exact ⟨hfound found, trivial⟩
  | cdFailed found => exact ⟨hfound found, trivial⟩
  | help found => exact ⟨hfound found, each_of_not_entered lines_not_entered⟩
  | helpCut found =>
    refine ⟨hfound found, Trace.each_append.2 ⟨each_of_not_entered lines_not_entered, ?_⟩⟩
    exact each_of_not_entered (by simp)
  | unflushed missing =>
    refine ⟨?_, each_of_not_entered (by simp)⟩
    intro name args f rest he hrest _
    cases hrest
    exact hafter _ rfl
  | launched missing =>
    refine ⟨fun name args f rest he hrest _ => ?_, each_of_not_entered (by simp)⟩
    cases hrest
  | launchFailed missing =>
    refine ⟨fun name args f rest he hrest _ => ?_, each_of_not_entered (by simp)⟩
    cases hrest

/-- What comes after a command that was reported on: the flush of standard output, and at most
another turn; nothing, if the report could not be written. -/
def Closes : Except Fault Flow → Trace → Prop
  | .ok _, after =>
    ∃ fault? rest, after = .flushed .out fault? :: rest ∧
      (rest = [] ∨ ∃ more, rest = .prompting :: more)
  | .error _, after => after = []

theorem Told.each_flushedFirst {settings : Settings} {args : List String} {events : Trace}
    {answer : Except Fault Flow} (h : Told settings args events answer) (before : Trace)
    {after : Trace} (hafter : Closes answer after) :
    Trace.Each (FlushedFirst settings) before events after := by
  cases h with
  | done course => exact course.each_flushedFirst before (by simp)
  | reported course =>
    refine Trace.each_append.2
      ⟨course.each_flushedFirst before ?_, each_of_not_entered (by simp [lineWritten])⟩
    rintro f ⟨⟩
    obtain ⟨fault?, rest, rfl, rfl | ⟨more, rfl⟩⟩ := hafter
    · exact .last
    · exact .next
  | unreported course part short =>
    refine Trace.each_append.2
      ⟨course.each_flushedFirst before ?_, each_of_not_entered (by simp)⟩
    rintro f ⟨⟩
    obtain rfl : after = [] := hafter
    exact .cut part short

end Shell

namespace Session

open Input (Item)

variable {σ : Type} {settings : Settings}

theorem each_flushedFirst_greeting {items : List Item} {before events after : Trace}
    (h : ∀ before, Trace.Each (Shell.FlushedFirst settings) before events after) :
    Trace.Each (Shell.FlushedFirst settings) before
      (greeting settings ++ .read items :: events) after := by
  rw [Trace.each_append]
  refine ⟨Shell.each_of_not_entered (by simp [greeting]), ?_, h _⟩
  intro name args f rest he
  cases he

theorem Course.each_flushedFirst {events : Trace} {verdict : Verdict}
    (h : Course settings events verdict) {before after : Trace}
    (hafter : Continues verdict after) :
    Trace.Each (Shell.FlushedFirst settings) before events after := by
  cases h with
  | ungreeted course =>
    apply Shell.each_of_not_entered
    cases course <;> simp
  | unread => exact each_flushedFirst_greeting fun _ => trivial
  | farewell =>
    exact each_flushedFirst_greeting fun _ => Shell.each_of_not_entered (by simp)
  | farewellCut =>
    exact each_flushedFirst_greeting fun _ => Shell.each_of_not_entered (by simp)
  | untold _ told => exact each_flushedFirst_greeting fun _ => told.each_flushedFirst _ hafter
  | unflushed _ told =>
    refine each_flushedFirst_greeting fun _ => Trace.each_append.2
      ⟨told.each_flushedFirst _ ?_, Shell.each_of_not_entered (by simp)⟩
    exact ⟨_, after, rfl, Or.inl hafter⟩
  | @obeyed _ _ _ flow _ told =>
    refine each_flushedFirst_greeting fun _ => Trace.each_append.2
      ⟨told.each_flushedFirst _ ?_, Shell.each_of_not_entered (by simp)⟩
    refine ⟨_, after, rfl, ?_⟩
    cases flow with
    | goOn => exact Or.inr hafter
    | stop => exact Or.inl hafter

/-- While a session waits for its input or for a program, nothing that it wrote is pending: every
byte that a stream took was followed by a flush of this stream that worked. Where the flush
before a launch fails, the program is not launched; the fault is reported as that of the command,
and only another turn can follow. -/
theorem nothing_pending (sys : System σ) (settings : Settings) (input : List Item)
    (w : World σ) :
    (∀ before items after,
      (run sys settings input w).trace = before ++ .read items :: after →
      ∀ stream, Trace.Settled stream before) ∧
    (∀ before args directory output after,
      (run sys settings input w).trace = before ++ .launched args directory output :: after →
      ∀ stream, Trace.Settled stream before) ∧
    ∀ before name args f after,
      (run sys settings input w).trace
        = before ++ .entered (name :: args) :: .flushed .out (some f) :: after →
      settings.registry.lookup name = none →
      let report := Utf8.encode (settings.name ++ ": " ++ ("Io Error <" ++ f.text ++ ">") ++ "\n")
      (∃ fault? rest, after = .wrote .err report :: .flushed .out fault? :: rest ∧
        (rest = [] ∨ ∃ more, rest = .prompting :: more)) ∨
      ∃ taken g, taken <+: report ∧ taken.length < report.length ∧
        after = [.wrote .err taken, .refused .err g] := by
  have hwaits := run_each sys
    (fun {_ _} (h : Course settings _ _) {_ _} _ => h.each_waits) input w []
  have hfirst := run_each sys
    (fun {_ _} (h : Course settings _ _) {_ _} hafter => h.each_flushedFirst hafter) input w []
  refine ⟨?_, ?_, ?_⟩
  · intro before items after heq
    exact hwaits.get heq trivial
  · intro before args directory output after heq
    exact hwaits.get heq trivial
  · intro before name args f after heq hnone report
    have h := hfirst.get heq name args f (after ++ []) rfl rfl hnone
    rw [List.append_nil] at h
    cases h with
    | last => exact Or.inl ⟨_, [], rfl, Or.inl rfl⟩
    | next => exact Or.inl ⟨_, _, rfl, Or.inr ⟨_, rfl⟩⟩
    | cut part short => exact Or.inr ⟨_, _, part, short, rfl⟩

/-- Standard output takes every byte, and its second flush fails. -/
def brittleWorld : World Rehearsal :=
  let second : Option (Nat × Fault) := some (2, .classified .brokenPipe)
  ⟨{ failingFlush := second }, {}, (⟨⟨[]⟩, []⟩, [])⟩

/-- The launch of a program. -/
def launchOnly : List Item := (Utf8.encode "ls\n").map .byte

/-- The flush before the only launch fails: it is reported, and another prompt follows. -/
theorem nothing_pending_brittle :
    let ending := run Rehearsal.system {} launchOnly brittleWorld
    let before := greeting {} ++ [.read launchOnly]
    let unflushed := Event.flushed .out (some (.classified .brokenPipe))
    let report := Event.wrote .err (Utf8.encode "kpsh: Io Error <broken pipe>\n")
    (∃ fault? more, ending.trace
      = before ++ .entered ["ls"] :: unflushed :: report :: .flushed .out fault?
        :: .prompting :: more) ∧
      ∀ before' after, ending.trace = before' ++ .read [] :: after →
        ∀ stream, Trace.Settled stream before' := by
  intro ending before unflushed report
  obtain ⟨hread, -, hwithheld⟩ := nothing_pending Rehearsal.system {} launchOnly brittleWorld
  refine ⟨?_, fun before' after => hread before' [] after⟩
  have htrace : ending.trace = before ++ .entered ["ls"] :: unflushed :: ending.trace.drop 7 := by
    decide +kernel
  have hlength : (ending.trace.drop 7).length = 8 := by decide +kernel
  rcases hwithheld before "ls" [] (.classified .brokenPipe) _ htrace (by decide) with
    ⟨fault?, rest, hafter, rfl | ⟨more, rfl⟩⟩ | ⟨taken, g, -, -, hafter⟩
  · rw [hafter] at hlength
    cases hlength
  · rw [hafter] at htrace
    exact ⟨fault?, more, htrace⟩
  · rw [hafter] at hlength
    cases hlength

end Session
end CommandShell
