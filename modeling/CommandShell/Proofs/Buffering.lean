import CommandShell.Program
import CommandShell.Proofs.Flushing

/-!
# Buffering is invisible in a shared file

Both streams and the launched programs may write to one file. Standard error and the programs
write to it at once; bytes on standard output may be held back for a while, and pass what comes
later only if somebody else writes in the meantime. The shell never lets that happen: nothing is
held back whenever it writes to standard error or launches a program (`Course.each_overtakes`),
so the file has the bytes in the order in which they were produced, whenever the buffer gives its
bytes away (`Session.run_buffered`).
-/

namespace CommandShell

open CommandShell.Action (lineWritten)

/-! ## A shared file -/

/-- One byte on its way to a shared file, or a flush. -/
inductive Transfer where
  /-- A byte that may be held back. -/
  | held (b : UInt8)
  /-- A byte that arrives at once. -/
  | direct (b : UInt8)
  /-- Everything that is held back has to arrive. -/
  | flushed
deriving DecidableEq

/-- A file with several writers, of which one is buffered. -/
structure SharedFile where
  /-- The bytes in the file. -/
  arrived : List UInt8 := []
  /-- The bytes that are held back, the first of them first. -/
  held : List UInt8 := []
deriving DecidableEq

namespace SharedFile

/-- The buffer gives some of its bytes away; it has to keep their order. -/
def deliver (file : SharedFile) (count : Nat) : SharedFile :=
  ⟨file.arrived ++ file.held.take count, file.held.drop count⟩

def step (file : SharedFile) : Transfer → SharedFile
  | .held b => { file with held := file.held ++ [b] }
  | .direct b => { file with arrived := file.arrived ++ [b] }
  | .flushed => ⟨file.arrived ++ file.held, []⟩

/-- The file after some transfers. The schedule says how many bytes the buffer gives away of its
own accord before each of them. -/
def after (schedule : Nat → Nat) (file : SharedFile) : List Transfer → SharedFile
  | [] => file
  | t :: rest => after (fun n => schedule (n + 1)) ((file.deliver (schedule 0)).step t) rest

/-- The bytes in the file at the end, when what is still held back arrives. -/
def closed (file : SharedFile) : List UInt8 := file.arrived ++ file.held

@[simp] theorem closed_deliver (file : SharedFile) (count : Nat) :
    (file.deliver count).closed = file.closed := by
  simp [deliver, closed]

theorem after_append (schedule : Nat → Nat) (file : SharedFile) (first second : List Transfer) :
    file.after schedule (first ++ second)
      = (file.after schedule first).after (fun n => schedule (n + first.length)) second := by
  induction first generalizing schedule file with
  | nil => rfl
  | cons t rest ih =>
    rw [List.cons_append, after, after, ih, List.length_cons]
    simp only [Nat.add_assoc]

/-- Bytes that are held back will come after all that is there. -/
theorem closed_after_held (schedule : Nat → Nat) (file : SharedFile) (bytes : List UInt8) :
    (file.after schedule (bytes.map .held)).closed = file.closed ++ bytes := by
  induction bytes generalizing schedule file with
  | nil => simp [after]
  | cons b rest ih =>
    have hstep : ((file.deliver (schedule 0)).step (.held b)).closed = file.closed ++ [b] := by
      rw [← closed_deliver file (schedule 0)]
      simp [step, closed]
    rw [List.map_cons, after, ih, hstep, List.append_assoc, List.singleton_append]

/-- Bytes that arrive at once come after all that is there if nothing is held back. -/
theorem after_direct {file : SharedFile} (h : file.held = []) (schedule : Nat → Nat)
    (bytes : List UInt8) :
    file.after schedule (bytes.map .direct) = ⟨file.arrived ++ bytes, []⟩ := by
  obtain ⟨arrived, held⟩ := file
  obtain rfl : held = [] := h
  induction bytes generalizing schedule arrived with
  | nil => simp [after]
  | cons b rest ih =>
    simp only [List.map_cons, after, deliver, step, List.take_nil, List.drop_nil, List.append_nil]
    rw [ih, List.append_assoc, List.singleton_append]

theorem after_flushed (schedule : Nat → Nat) (file : SharedFile) :
    file.after schedule [.flushed] = ⟨file.closed, []⟩ := by
  simp [after, deliver, step, closed]

end SharedFile

/-! ## The transfers of a trace -/

/-- What an event transfers to a file that both streams and the programs share. Bytes on standard
output pass as `passing` says: they may be held back, or arrive at once like all others. -/
def Event.transfers (passing : UInt8 → Transfer) : Event → List Transfer
  | .wrote .out bytes => bytes.map passing
  | .wrote .err bytes => bytes.map .direct
  | .flushed .out none => [.flushed]
  | .launched _ _ output => (output.flatMap Prod.snd).map .direct
  | _ => []

/-- The event may put bytes into a shared file at once. -/
def Event.Overtakes : Event → Prop
  | .wrote .err _ => True
  | .launched _ _ _ => True
  | _ => False

namespace Trace

/-- The bytes of both streams and of the programs, in the order in which they were produced. -/
def produced (trace : Trace) : List UInt8 := trace.delivered.flatMap Prod.snd

theorem produced_append (first second : Trace) :
    (first ++ second).produced = first.produced ++ second.produced := by
  simp [produced, delivered]

theorem Settled.of_concat {stream : Stream} {trace : Trace} {e : Event}
    (h : Settled stream (trace ++ [e])) (he : e ≠ .flushed stream none) :
    Settled stream trace := by
  intro x bytes y heq hne
  have hmem := h x bytes (y ++ [e]) (by simp [heq]) hne
  rcases List.mem_append.1 hmem with hmem | hmem
  · exact hmem
  · exact absurd (List.mem_singleton.1 hmem).symm he

theorem Settled.append {stream : Stream} {trace events : Trace} (h : Settled stream trace)
    (he : ∀ e ∈ events, ∀ bytes, e ≠ .wrote stream bytes) : Settled stream (trace ++ events) := by
  induction events generalizing trace with
  | nil => simpa using h
  | cons e rest ih =>
    rw [List.append_cons]
    exact ih (h.concat (he e List.mem_cons_self)) fun e' he' => he e' (List.mem_cons_of_mem e he')

/-- The last bytes that were written are not settled. -/
theorem not_settled_wrote {stream : Stream} {trace : Trace} {bytes : List UInt8}
    (hne : bytes ≠ []) : ¬ Settled stream (trace ++ [.wrote stream bytes]) := by
  intro h
  cases h trace bytes [] rfl hne

/-- An event is a write to standard output, or a flush of it, or what it produces arrives at once
and overtakes what is held back. -/
theorem transfers_cases (e : Event) :
    (∃ bytes, e = .wrote .out bytes) ∨ e = .flushed .out none ∨
      (e ≠ .flushed .out none ∧ (produced [e] ≠ [] → e.Overtakes) ∧
        ∀ passing, e.transfers passing = (produced [e]).map .direct) := by
  cases e with
  | wrote stream bytes =>
    cases stream with
    | out => exact Or.inl ⟨bytes, rfl⟩
    | err => exact Or.inr (Or.inr ⟨by simp, fun _ => trivial, fun _ => by
        simp [Event.transfers, produced, delivered]⟩)
  | launched args directory output =>
    exact Or.inr (Or.inr ⟨by simp, fun _ => trivial, fun _ => by
      simp [Event.transfers, produced, delivered]⟩)
  | flushed stream fault? =>
    cases stream with
    | err => exact Or.inr (Or.inr ⟨by simp, fun h => absurd rfl h, fun _ => rfl⟩)
    | out =>
      cases fault? with
      | none => exact Or.inr (Or.inl rfl)
      | some f => exact Or.inr (Or.inr ⟨by simp, fun h => absurd rfl h, fun _ => rfl⟩)
  | _ => exact Or.inr (Or.inr ⟨by simp, fun h => absurd rfl h, fun _ => rfl⟩)

theorem produced_wrote (stream : Stream) (bytes : List UInt8) :
    produced [.wrote stream bytes] = bytes := by
  simp [produced, delivered]

/-- An event that puts bytes into a shared file at once finds standard output settled, unless a
write to it was refused before. -/
def OvertakesSettled (before : Trace) (e : Event) (_ : Trace) : Prop :=
  e.Overtakes → (∀ f, .refused .out f ∉ before) → Settled .out before

theorem each_of_not_overtakes {before trace after : Trace} (h : ∀ e ∈ trace, ¬ e.Overtakes) :
    Each OvertakesSettled before trace after :=
  each_of_forall fun e he _ _ ho => absurd ho (h e he)

end Trace

/-! ## Files that follow a trace -/

namespace SharedFile

/-- With an unbuffered standard output, the bytes arrive in the order in which they were
produced. -/
theorem after_unbuffered {file : SharedFile} (h : file.held = []) (schedule : Nat → Nat)
    (trace : Trace) :
    file.after schedule (trace.flatMap (Event.transfers .direct))
      = ⟨file.arrived ++ trace.produced, []⟩ := by
  induction trace generalizing file schedule with
  | nil =>
    obtain ⟨arrived, held⟩ := file
    obtain rfl : held = [] := h
    simp [after, Trace.produced, Trace.delivered]
  | cons e rest ih =>
    have hevent : file.after schedule (e.transfers .direct)
        = ⟨file.arrived ++ Trace.produced [e], []⟩ := by
      rcases Trace.transfers_cases e with ⟨bytes, rfl⟩ | rfl | ⟨-, -, htransfers⟩
      · rw [Trace.produced_wrote]
        exact after_direct h schedule bytes
      · rw [Event.transfers, after_flushed, closed, h]
        rfl
      · rw [htransfers]
        exact after_direct h schedule _
    rw [List.flatMap_cons, after_append, hevent, ih rfl, List.append_assoc,
      ← Trace.produced_append, List.singleton_append]

/-- A file has, at the end, the bytes of a trace in their order, and nothing is held back if
standard output is settled. -/
structure Follows (trace : Trace) (file : SharedFile) : Prop where
  closed : file.closed = trace.produced
  held : Trace.Settled .out trace → file.held = []

/-- A file follows one more event, unless this event overtakes what is held back. -/
theorem Follows.concat {trace : Trace} {file : SharedFile} (h : file.Follows trace) {e : Event}
    (he : e.Overtakes → Trace.Settled .out trace) (schedule : Nat → Nat) :
    (file.after schedule (e.transfers .held)).Follows (trace ++ [e]) := by
  have hproduced := Trace.produced_append trace [e]
  rcases Trace.transfers_cases e with ⟨bytes, rfl⟩ | rfl | ⟨hflush, hovertakes, htransfers⟩
  · rw [Trace.produced_wrote] at hproduced
    refine ⟨?_, fun hs => ?_⟩
    · rw [hproduced, ← h.closed]
      exact closed_after_held schedule file bytes
    · -- the last bytes are not settled; if there are none, what was settled is so still
      by_cases hne : bytes = []
      · subst hne
        exact h.held (hs.of_concat (by simp))
      · exact absurd hs (Trace.not_settled_wrote hne)
  · rw [Event.transfers, after_flushed]
    refine ⟨?_, fun _ => rfl⟩
    rw [hproduced, ← h.closed]
    rfl
  · rw [htransfers]
    by_cases hnone : Trace.produced [e] = []
    · rw [hnone, List.map_nil, after]
      refine ⟨?_, fun hs => h.held (hs.of_concat hflush)⟩
      rw [hproduced, hnone, List.append_nil]
      exact h.closed
    · have hheld := h.held (he (hovertakes hnone))
      rw [after_direct hheld]
      refine ⟨?_, fun _ => rfl⟩
      rw [hproduced, ← h.closed]
      simp [SharedFile.closed, hheld]

/-- A file follows a trace in which nothing overtakes what is held back. -/
theorem Follows.append {before : Trace} {file : SharedFile} (h : file.Follows before)
    {trace after : Trace} (heach : Trace.Each Trace.OvertakesSettled before trace after)
    (hwrites : ∀ f, .refused .out f ∉ before ++ trace) (schedule : Nat → Nat) :
    (file.after schedule (trace.flatMap (Event.transfers .held))).Follows (before ++ trace) := by
  induction trace generalizing before file schedule with
  | nil => simpa [SharedFile.after] using h
  | cons e rest ih =>
    obtain ⟨hfirst, hrest⟩ := heach
    have hbefore : ∀ f, .refused .out f ∉ before :=
      fun f hmem => hwrites f (List.mem_append_left _ hmem)
    have hnext := h.concat (fun ho => hfirst ho hbefore) schedule
    rw [List.append_cons] at hwrites ⊢
    rw [List.flatMap_cons, after_append]
    exact ih hnext hrest hwrites _

end SharedFile

/-! ## Commands -/

namespace Shell

variable {settings : Settings} {args : List String} {events : Trace} {before : Trace}

/-- A command does not overtake what is held back: before a launch standard output is flushed. -/
theorem Course.each_overtakes {answer : Except CommandError Flow}
    (h : Course settings args events answer) (after : Trace) :
    Trace.Each Trace.OvertakesSettled before events after := by
  have hlines : ∀ e ∈ (Builtin.helpLines settings.registry).map (lineWritten .out),
      ¬ e.Overtakes := by
    intro e he
    obtain ⟨line, -, rfl⟩ := List.mem_map.1 he
    exact id
  cases h with
  | blank => trivial
  | exit => exact Trace.each_of_not_overtakes (by simp [Event.Overtakes])
  | cd => exact Trace.each_of_not_overtakes (by simp [Event.Overtakes])
  | cdFailed => exact Trace.each_of_not_overtakes (by simp [Event.Overtakes])
  | help => exact ⟨fun ho => ho.elim, Trace.each_of_not_overtakes hlines⟩
  | helpCut _ lines =>
    rw [lines, List.map_append] at hlines
    refine ⟨fun ho => ho.elim, Trace.each_append.2 ⟨?_, ?_⟩⟩
    · exact Trace.each_of_not_overtakes fun e he => hlines e (List.mem_append_left _ he)
    · exact Trace.each_of_not_overtakes (by simp [Event.Overtakes])
  | unflushed => exact Trace.each_of_not_overtakes (by simp [Event.Overtakes])
  | launched =>
    exact ⟨fun ho => ho.elim, fun ho => ho.elim, fun _ _ => Trace.settled_flushed .out _, trivial⟩
  | launchFailed =>
    exact ⟨fun ho => ho.elim, fun ho => ho.elim, fun _ _ => Trace.settled_flushed .out _, trivial⟩

/-- A command that fails leaves standard output settled, unless a write to it was refused. -/
theorem Course.settled_of_error {e : CommandError} (h : Course settings args events (.error e))
    (hout : Trace.Settled .out before) (hwrites : ∀ f, .refused .out f ∉ events) :
    Trace.Settled .out (before ++ events) := by
  cases h with
  | cdFailed => exact hout.append (by simp)
  | @helpCut _ _ _ _ _ _ f => exact absurd (by simp) (hwrites f)
  | unflushed => exact hout.append (by simp)
  | launchFailed => exact hout.append (by simp)

/-- The report of a command that failed does not overtake what is held back either. -/
theorem Told.each_overtakes {answer : Except Fault Flow} (h : Told settings args events answer)
    (hout : Trace.Settled .out before) (after : Trace) :
    Trace.Each Trace.OvertakesSettled before events after := by
  have hreport : ∀ {events : Trace} {e : CommandError} {bytes : List UInt8} {after : Trace},
      Course settings args events (.error e) →
      Trace.OvertakesSettled (before ++ events) (.wrote .err bytes) after := by
    intro events e bytes after course _ hwrites
    exact course.settled_of_error hout fun f hmem => hwrites f (List.mem_append_right _ hmem)
  cases h with
  | done course => exact course.each_overtakes after
  | reported course =>
    exact Trace.each_append.2 ⟨course.each_overtakes _, hreport course, trivial⟩
  | unreported course =>
    exact Trace.each_append.2
      ⟨course.each_overtakes _, hreport course, fun ho => ho.elim, trivial⟩

theorem Told.settled_of_error {f : Fault} (h : Told settings args events (.error f))
    (hout : Trace.Settled .out before) (hwrites : ∀ f, .refused .out f ∉ events) :
    Trace.Settled .out (before ++ events) := by
  cases h with
  | unreported course =>
    rw [← List.append_assoc]
    refine (course.settled_of_error hout fun f hmem => ?_).append (by simp)
    exact hwrites f (List.mem_append_left _ hmem)

end Shell

/-! ## Sessions -/

namespace Session

open Input (Item)

variable {σ : Type} {settings : Settings} {before : Trace}

/-- A greeting and a read settle standard output, whatever was written before. -/
theorem settled_greeting_read (settings : Settings) (before : Trace) (items : List Item) :
    Trace.Settled .out (before ++ greeting settings ++ [.read items]) :=
  (settled_greeting settings before .out).concat (by simp)

theorem each_overtakes_greeting {items : List Item} {events after : Trace}
    (h : ∀ before, Trace.Settled .out before →
      Trace.Each Trace.OvertakesSettled before events after) :
    Trace.Each Trace.OvertakesSettled before (greeting settings ++ .read items :: events)
      after := by
  rw [Trace.each_append]
  refine ⟨Trace.each_of_not_overtakes (by simp [greeting, Event.Overtakes]),
    fun ho => ho.elim, h _ ?_⟩
  exact settled_greeting_read settings before items

theorem Course.each_overtakes {events : Trace} {verdict : Verdict}
    (h : Course settings events verdict) {after : Trace} :
    Trace.Each Trace.OvertakesSettled before events after := by
  cases h with
  | ungreeted course =>
    apply Trace.each_of_not_overtakes
    cases course <;> simp [Event.Overtakes]
  | unread => exact each_overtakes_greeting fun _ _ => trivial
  | farewell =>
    exact each_overtakes_greeting fun _ _ =>
      Trace.each_of_not_overtakes (by simp [Event.Overtakes])
  | farewellCut =>
    exact each_overtakes_greeting fun _ _ =>
      Trace.each_of_not_overtakes (by simp [Event.Overtakes])
  | untold _ told => exact each_overtakes_greeting fun _ hout => told.each_overtakes hout _
  | unflushed _ told =>
    exact each_overtakes_greeting fun _ hout =>
      Trace.each_append.2 ⟨told.each_overtakes hout _, fun ho => ho.elim, trivial⟩
  | obeyed _ told =>
    exact each_overtakes_greeting fun _ hout =>
      Trace.each_append.2 ⟨told.each_overtakes hout _, fun ho => ho.elim, trivial⟩

/-- A turn that fails, but not by a write to standard output or a flush of it, leaves it settled. -/
theorem Course.settled_of_failed {events : Trace} {e : SessionError}
    (h : Course settings events (.failed e)) (hwrites : ∀ f, .refused .out f ∉ events)
    (hflushes : ∀ f, .flushed .out (some f) ∉ events) :
    Trace.Settled .out (before ++ events) := by
  generalize hv : Verdict.failed e = verdict at h
  cases h with
  | ungreeted course =>
    cases course with
    | @promptCut _ f => exact absurd (by simp) (hwrites f)
    | @promptUnflushed f => exact absurd (by simp) (hflushes f)
    | reportsUnflushed =>
      have hflushed := Trace.settled_flushed .out
        (before ++ [.prompting, .wrote .out (Utf8.encode settings.prompt)])
      simpa using hflushed.append (by simp)
  | unread =>
    rw [← List.append_assoc]
    exact settled_greeting_read settings before _
  | farewell => cases hv
  | @farewellCut _ _ f => exact absurd (by simp) (hwrites f)
  | @untold items _ events _ _ told =>
    have hsettled := told.settled_of_error (settled_greeting_read settings before items)
      fun f hmem => hwrites f (by simp [hmem])
    simpa using hsettled
  | @unflushed _ _ _ _ f => exact absurd (by simp) (hflushes f)
  | @obeyed _ _ _ flow => cases flow <;> cases hv

/-- A session that fails, but not by a write to standard output or a flush of it, leaves it
settled. -/
theorem settled_of_run_error (sys : System σ) (settings : Settings) (input : List Item)
    (w : World σ) {e : SessionError} (h : (run sys settings input w).answer = .error e)
    (hwrites : ∀ f, .refused .out f ∉ (run sys settings input w).trace)
    (hflushes : ∀ f, .flushed .out (some f) ∉ (run sys settings input w).trace) :
    Trace.Settled .out (before ++ (run sys settings input w).trace) := by
  induction input, w using run_induction sys settings generalizing before with
  | last input w hgo =>
    have hcourse := turn_course sys settings input w
    cases hv : (turn sys settings input w).verdict with
    | goOn => exact absurd hv hgo
    | ended =>
      rw [run_of_ended hv] at h
      cases h
    | failed e =>
      rw [run_of_failed hv] at hwrites hflushes ⊢
      rw [hv] at hcourse
      exact hcourse.settled_of_failed hwrites hflushes
  | next input w hgo ih =>
    rw [run_of_goOn hgo] at h hwrites hflushes ⊢
    simp only [Ending.after, List.mem_append, not_or] at h hwrites hflushes ⊢
    rw [← List.append_assoc]
    exact ih h (fun f => (hwrites f).2) fun f => (hflushes f).2

/-- What the program writes after a session: the report of an error that ended it. -/
def Ending.lastWords (settings : Settings) (ending : Ending σ) : Trace :=
  match ending.answer with
  | .ok () => []
  | .error e => (Action.writeLine .err (Program.report settings e) ending.world).trace

/-- The last report does not overtake what is held back either. -/
theorem each_overtakes_lastWords (sys : System σ) (settings : Settings) (input : List Item)
    (w : World σ)
    (hwrites : ∀ f, .refused .out f ∉ (run sys settings input w).trace)
    (hflushes : ∀ f, .flushed .out (some f) ∉ (run sys settings input w).trace) :
    Trace.Each Trace.OvertakesSettled (run sys settings input w).trace
      ((run sys settings input w).lastWords settings) [] := by
  unfold Ending.lastWords
  split
  · trivial
  · next e he =>
    have hsettled : Trace.Settled .out ([] ++ (run sys settings input w).trace) :=
      settled_of_run_error sys settings input w he hwrites hflushes
    rcases Action.writeLine_cases .err (Program.report settings e)
      (run sys settings input w).world with ⟨w', hw⟩ | ⟨taken, f, w', -, -, hw⟩
    · rw [hw]
      exact ⟨fun _ _ => hsettled, trivial⟩
    · rw [hw]
      exact ⟨fun _ _ => hsettled, fun ho => ho.elim, trivial⟩

theorem lastWords_not_refused (settings : Settings) (ending : Ending σ) (f : Fault) :
    .refused .out f ∉ ending.lastWords settings := by
  unfold Ending.lastWords
  split
  · simp
  · next e he =>
    rcases Action.writeLine_cases .err (Program.report settings e) ending.world with
      ⟨w', hw⟩ | ⟨taken, g, w', -, -, hw⟩
    · simp [hw, lineWritten]
    · simp [hw]

/-- Let both streams and the launched programs write to one file, to which standard output is
buffered: its bytes arrive in order, at any time, but at the latest with a flush or at the end.
If no write to standard output and no flush of it fails, the file has all bytes in the end, those of
a last report included, in the order in which they were produced, as with an unbuffered standard
output. -/
theorem run_buffered (sys : System σ) (settings : Settings) (input : List Item) (w : World σ)
    (hwrites : ∀ f, .refused .out f ∉ (run sys settings input w).trace)
    (hflushes : ∀ f, .flushed .out (some f) ∉ (run sys settings input w).trace)
    (schedule : Nat → Nat) :
    let ending := run sys settings input w
    let events := ending.trace ++ ending.lastWords settings
    let file := fun passing =>
      SharedFile.after schedule {} (events.flatMap (Event.transfers passing))
    (file .held).closed = (file .direct).closed ∧ (file .held).closed = events.produced := by
  intro ending events file
  have hstart : SharedFile.Follows [] {} := ⟨rfl, fun _ => rfl⟩
  -- the file follows the session first, and then what comes after it
  have hsession := hstart.append
    (run_each sys (fun {_ _} (h : Course settings _ _) {_ _} _ => h.each_overtakes) input w [])
    hwrites schedule
  have hrefused : ∀ f, .refused .out f ∉ events := by
    intro f hmem
    rcases List.mem_append.1 hmem with hmem | hmem
    · exact hwrites f hmem
    · exact lastWords_not_refused settings ending f hmem
  have hlast := each_overtakes_lastWords sys settings input w hwrites hflushes
  have hevents := hsession.append hlast hrefused
    fun n => schedule (n + (ending.trace.flatMap (Event.transfers .held)).length)
  rw [← SharedFile.after_append, ← List.flatMap_append] at hevents
  have hunbuffered : file .direct = ⟨events.produced, []⟩ :=
    SharedFile.after_unbuffered rfl schedule events
  have hclosed : (file .direct).closed = events.produced := by
    rw [hunbuffered, SharedFile.closed, List.append_nil]
  exact ⟨hevents.closed.trans hclosed.symm, hevents.closed⟩

/-- A launcher whose programs write to both streams and are ended by a signal. -/
def noisyLauncher : Launcher Unit where
  launch args _ _ :=
    ⟨[(.out, Utf8.encode "a"), (.err, Utf8.encode "b")], .error (.terminated (args.headD "") 9), ()⟩

/-- The system of the root directory alone and this launcher. -/
def noisySystem : System (Standing × Unit) := .ofParts Standing.directories noisyLauncher

/-- The launch of a program, and then a fault instead of a line. -/
def launchThenFault : List Item :=
  Input.ofArrivals [.bytes (Utf8.encode "ls\n"), .fault (.classified .brokenPipe)]

theorem run_buffered_noisy :
    let ending := run noisySystem {} launchThenFault ⟨{}, {}, (⟨⟨[]⟩, []⟩, ())⟩
    let events := ending.trace ++ ending.lastWords {}
    (∀ f, .refused .out f ∉ ending.trace) ∧ (∀ f, .flushed .out (some f) ∉ ending.trace) ∧
      (SharedFile.after (fun n => n % 3) {} (events.flatMap (Event.transfers .held))).closed
        = Utf8.encode ("> abkpsh: ls: terminated by signal 9\n"
            ++ "> kpsh: Io Error <broken pipe>\n") := by
  intro ending events
  have htrace : ending.trace =
      greeting {} ++ [.read ((Utf8.encode "ls\n").map .byte), .entered ["ls"], .flushed .out none,
        .launched ["ls"] "/" [(.out, Utf8.encode "a"), (.err, Utf8.encode "b")],
        .wrote .err (Utf8.encode "kpsh: ls: terminated by signal 9\n"), .flushed .out none]
      ++ greeting {} ++ [.read [.fault (.classified .brokenPipe)]] := by decide +kernel
  have hwrites : ∀ f, .refused .out f ∉ ending.trace := by simp [htrace, greeting]
  have hflushes : ∀ f, .flushed .out (some f) ∉ ending.trace := by simp [htrace, greeting]
  have hclosed := run_buffered noisySystem {} launchThenFault ⟨{}, {}, (⟨⟨[]⟩, []⟩, ())⟩
    hwrites hflushes fun n => n % 3
  refine ⟨hwrites, hflushes, hclosed.2.trans ?_⟩
  decide +kernel

end Session
end CommandShell
