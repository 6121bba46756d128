import CommandShell.Proofs.Composition
import CommandShell.Proofs.Flushing
import CommandShell.Proofs.Reliable
import CommandShell.Proofs.Transport

/-!
# A standard output with a limit

When standard output takes a limited number of bytes, a session does exactly what it does without
the limit until a byte is refused; from then on there is no room for any byte, so nothing slips
through behind the gap. `Cut` says this of one action, and is kept when actions are put together.
After a byte was refused only a report and the flush after the command can come before the next
prompt, and that cannot be written: so nothing is read or launched any more
(`Session.run_truncated`).
-/

namespace CommandShell

open CommandShell.Action (lineWritten)

/-- Only the empty text has no bytes. -/
theorem Utf8.encode_ne_nil {text : String} (h : text ≠ "") : Utf8.encode text ≠ [] := by
  intro hnil
  rw [encode, encodeChars, List.flatMap_eq_nil_iff] at hnil
  have hchars : text.toList ≠ [] := fun hempty => h (String.toList_eq_nil_iff.1 hempty)
  obtain ⟨c, hc⟩ := List.exists_mem_of_ne_nil _ hchars
  have hlength := congrArg List.length (hnil c hc)
  rw [String.length_utf8EncodeChar] at hlength
  exact absurd hlength (Nat.ne_of_gt c.utf8Size_pos)

/-! ## Sinks with a limit -/

namespace Sink

/-- A sink that takes so many more bytes, and of which no flush that is still to come fails. -/
structure Limited (room : Nat) (s : Sink) : Prop where
  limit : s.room = some room
  takes : s.pieceSize ≠ some 0
  flushes : ∀ count, s.flushes < count → s.failingFlush count = none

variable {room : Nat} {s : Sink}

theorem Limited.write_of_le (h : s.Limited room) {bytes : List UInt8}
    (hle : bytes.length ≤ room) :
    ∃ s', s.write bytes = ⟨bytes, none, s'⟩ ∧ s'.Limited (room - bytes.length) := by
  obtain ⟨next, hw⟩ := write_eq h.takes bytes
  have hleft : s.room.map (· - bytes.length) = some (room - bytes.length) := by
    rw [h.limit, Option.map_some]
  have hfitting : s.fitting bytes = bytes := by
    simp only [fitting, h.limit, List.take_of_length_le hle]
  have hshortage : s.shortage? bytes = none := by
    simp only [shortage?, h.limit, if_pos hle]
  rw [hfitting, hshortage] at hw
  exact ⟨_, hw, hleft, h.takes, h.flushes⟩

theorem Limited.write_of_lt (h : s.Limited room) {bytes : List UInt8}
    (hlt : room < bytes.length) :
    ∃ f s', s.write bytes = ⟨bytes.take room, some f, s'⟩ ∧ s'.Limited 0 := by
  obtain ⟨next, hw⟩ := write_eq h.takes bytes
  have hleft : s.room.map (· - bytes.length) = some 0 := by
    rw [h.limit, Option.map_some, Nat.sub_eq_zero_of_le (Nat.le_of_lt hlt)]
  have hfitting : s.fitting bytes = bytes.take room := by
    simp only [fitting, h.limit]
  have hshortage : s.shortage? bytes = some s.refusal.toFault := by
    simp only [shortage?, h.limit, if_neg (Nat.not_le.2 hlt)]
  rw [hfitting, hshortage] at hw
  exact ⟨_, _, hw, hleft, h.takes, h.flushes⟩

theorem Limited.flush (h : s.Limited room) : ∃ s', s.flush = (none, s') ∧ s'.Limited room :=
  ⟨_, flush_of_past h.flushes, h.limit, h.takes,
    fun count hlt => h.flushes count (Nat.lt_of_succ_lt hlt)⟩

end Sink

variable {σ : Type}

namespace World

/-- Standard output takes no more bytes; all else works. -/
structure Dry (w : World σ) : Prop where
  out : w.out.Limited 0
  err : w.err.Reliable

/-- In both worlds all works, but in the second one standard output takes only so many bytes. -/
structure Narrowed (room : Nat) (w w' : World σ) : Prop where
  wide : w.Reliable
  out : w'.out.Limited room
  err : w'.err.Reliable
  system : w.system = w'.system

theorem Dry.flush {w : World σ} (h : w.Dry) (stream : Stream) :
    ∃ s, (w.sink stream).flush = (none, s) ∧ (w.setSink stream s).Dry := by
  cases stream with
  | out =>
    obtain ⟨s, hs, hs'⟩ := h.out.flush
    exact ⟨s, hs, hs', h.err⟩
  | err =>
    obtain ⟨s, hs, hs'⟩ := h.err.flush
    exact ⟨s, hs, h.out, hs'⟩

/-- A flush changes nothing of a limit. -/
theorem Narrowed.flush {room : Nat} {w w' : World σ} (h : w.Narrowed room w')
    (stream : Stream) :
    ∃ s t, (w.sink stream).flush = (none, s) ∧ (w'.sink stream).flush = (none, t) ∧
      (w.setSink stream s).Narrowed room (w'.setSink stream t) := by
  cases stream with
  | out =>
    obtain ⟨s, hs, hs'⟩ := h.wide.out.flush
    obtain ⟨t, ht, ht'⟩ := h.out.flush
    exact ⟨s, t, hs, ht, ⟨hs', h.wide.err⟩, ht', h.err, h.system⟩
  | err =>
    obtain ⟨s, hs, hs'⟩ := h.wide.err.flush
    obtain ⟨t, ht, ht'⟩ := h.err.flush
    exact ⟨s, t, hs, ht, ⟨h.wide.out, hs'⟩, h.out, ht', h.system⟩

end World

/-! ## Actions -/

/-- What a limit on standard output makes of something that was done: the same, if there was room
for all bytes; else their first part was taken, and standard output takes no more. -/
inductive Cut {ε α : Type} (room : Nat) (full cut : Outcome σ ε α) : Prop
  | whole (left : Nat) (fits : room = (full.trace.written .out).length + left)
    (trace : cut.trace = full.trace) (answer : cut.answer = full.answer)
    (taken : ∀ f, .refused .out f ∉ full.trace) (world : full.world.Narrowed left cut.world)
  | short (lacks : room < (full.trace.written .out).length)
    (written : cut.trace.written .out = (full.trace.written .out).take room)
    (refused : ∃ f, .refused .out f ∈ cut.trace) (world : cut.world.Dry)

namespace Action

variable {ε ε' α β : Type}

/-- When standard output takes no more bytes, the action writes none to it. -/
def Parched (act : Action σ ε α) : Prop :=
  ∀ w, w.Dry → (act w).trace.written .out = [] ∧ (act w).world.Dry

/-- A limit on standard output cuts off bytes of the action, and nothing comes after them. -/
structure Bounded (act : Action σ ε α) : Prop where
  cuts : ∀ room w w', w.Narrowed room w' → Cut room (act w) (act w')
  parched : Parched act

/-- Something that leaves both streams as they are, and writes nothing. -/
theorem bounded_of_quiet {act : Action σ ε α}
    (h : ∀ w : World σ, (act w).world.out = w.out ∧ (act w).world.err = w.err ∧
      (act w).trace.written .out = [] ∧ ∀ f, .refused .out f ∉ (act w).trace)
    (hsystem : ∀ w w' : World σ, w.system = w'.system → (act w').trace = (act w).trace ∧
      (act w').answer = (act w).answer ∧ (act w).world.system = (act w').world.system) :
    Bounded act where
  cuts room w w' hw := by
    obtain ⟨hout, herr, hwritten, htaken⟩ := h w
    obtain ⟨hout', herr', -, -⟩ := h w'
    obtain ⟨htrace, hanswer, hsame⟩ := hsystem w w' hw.system
    have hwide : (act w).world.Reliable := ⟨hout ▸ hw.wide.out, herr ▸ hw.wide.err⟩
    refine .whole room (by rw [hwritten]; simp) htrace hanswer htaken
      ⟨hwide, ?_, ?_, hsame⟩
    · rw [hout']
      exact hw.out
    · rw [herr']
      exact hw.err
  parched w hw := by
    obtain ⟨hout, herr, hwritten, -⟩ := h w
    exact ⟨hwritten, hout ▸ hw.out, herr ▸ hw.err⟩

theorem bounded_conclude (answer : Except ε α) : Bounded (conclude answer : Action σ ε α) := by
  apply bounded_of_quiet
  · intro w
    rw [conclude_apply]
    exact ⟨rfl, rfl, rfl, fun _ => List.not_mem_nil⟩
  · intro w w' h
    rw [conclude_apply, conclude_apply]
    exact ⟨rfl, rfl, h⟩

/-- It is quiet to note an event that is neither a write nor a refusal. -/
theorem bounded_note {e : Event} (hwritten : Trace.written .out [e] = [])
    (htaken : ∀ f, e ≠ .refused .out f) : Bounded (note e : Action σ ε Unit) := by
  apply bounded_of_quiet
  · intro w
    exact ⟨rfl, rfl, hwritten, fun f hf => htaken f (List.mem_singleton.1 hf).symm⟩
  · intro w w' h
    exact ⟨rfl, rfl, h⟩

theorem bounded_follow {first : Action σ ε α} {next : Except ε α → Action σ ε' β}
    (hfirst : Bounded first) (hnext : ∀ answer, Bounded (next answer)) :
    Bounded (first.follow next) where
  cuts room w w' hw := by
    rcases hfirst.cuts room w w' hw with
      ⟨left, hfits, htrace, hanswer, htaken, hworld⟩ | ⟨hlacks, hwritten, ⟨f, hf⟩, hdry⟩
    · -- the first part fits, and the second one has the room that it leaves
      have hsecond := (hnext (first w).answer).cuts left _ _ hworld
      rw [follow, follow, htrace, hanswer]
      rcases hsecond with
        ⟨left', hfits', htrace', hanswer', htaken', hworld'⟩ | ⟨hlacks', hwritten', ⟨g, hg⟩, hdry'⟩
      · refine .whole left' ?_ (by rw [htrace']) hanswer' ?_ hworld'
        · rw [Trace.written_append, List.length_append]
          omega
        · intro g hg
          rcases List.mem_append.1 hg with hg | hg
          · exact htaken g hg
          · exact htaken' g hg
      · refine .short ?_ ?_ ⟨g, List.mem_append_right _ hg⟩ hdry'
        · rw [Trace.written_append, List.length_append]
          omega
        · rw [Trace.written_append, Trace.written_append, hwritten', hfits,
            List.take_length_add_append]
    · -- the first part is cut off, so the second one finds no room at all
      obtain ⟨hnone, hdry'⟩ := (hnext (first w').answer).parched _ hdry
      refine .short ?_ ?_ ⟨f, List.mem_append_left _ hf⟩ hdry'
      · rw [follow, Trace.written_append, List.length_append]
        omega
      · rw [follow, follow, Trace.written_append, Trace.written_append, hnone, List.append_nil,
          hwritten, List.take_append_of_le_length (Nat.le_of_lt hlacks)]
  parched w hw := by
    obtain ⟨hnone, hdry⟩ := hfirst.parched w hw
    obtain ⟨hnone', hdry'⟩ := (hnext (first w).answer).parched _ hdry
    refine ⟨?_, hdry'⟩
    rw [follow, Trace.written_append, hnone, hnone', List.nil_append]

/-! ## Writes and flushes -/

theorem writeBytes_of_eq {stream : Stream} {bytes taken : List UInt8} {w : World σ} {s : Sink}
    (h : (w.sink stream).write bytes = ⟨taken, none, s⟩) :
    writeBytes stream bytes w = ⟨[.wrote stream taken], .ok (), w.setSink stream s⟩ := by
  rw [writeBytes, h]

theorem writeBytes_of_eq_fault {stream : Stream} {bytes taken : List UInt8} {f : Fault}
    {w : World σ} {s : Sink} (h : (w.sink stream).write bytes = ⟨taken, some f, s⟩) :
    writeBytes stream bytes w
      = ⟨[.wrote stream taken, .refused stream f], .error f, w.setSink stream s⟩ := by
  rw [writeBytes, h]

theorem flush_of_eq {stream : Stream} {w : World σ} {s : Sink}
    (h : (w.sink stream).flush = (none, s)) :
    flush stream w = ⟨[.flushed stream none], .ok (), w.setSink stream s⟩ := by
  rw [flush, h]

/-- Standard error is not concerned by a limit on standard output. -/
theorem bounded_writeBytes_err (bytes : List UInt8) :
    Bounded (writeBytes .err bytes : Action σ Fault Unit) := by
  refine ⟨fun room w w' hw => ?_, fun w hw => ?_⟩
  · obtain ⟨s, hs, hs'⟩ := hw.wide.err.write bytes
    obtain ⟨t, ht, ht'⟩ := hw.err.write bytes
    have hfull : writeBytes .err bytes w = _ := writeBytes_of_eq hs
    have hcut : writeBytes .err bytes w' = _ := writeBytes_of_eq ht
    rw [hfull, hcut]
    exact .whole room (by simp [Trace.written]) rfl rfl (by simp)
      ⟨⟨hw.wide.out, hs'⟩, hw.out, ht', hw.system⟩
  · obtain ⟨s, hs, hs'⟩ := hw.err.write bytes
    have heq : writeBytes .err bytes w = _ := writeBytes_of_eq hs
    rw [heq]
    exact ⟨rfl, hw.out, hs'⟩

/-- In a dry world a write to standard output takes nothing, whether or not there was something to
take. -/
theorem parched_writeBytes_out (bytes : List UInt8) :
    Parched (writeBytes .out bytes : Action σ Fault Unit) := by
  intro w hw
  by_cases hle : bytes.length ≤ 0
  · obtain ⟨s, hs, hs'⟩ := hw.out.write_of_le hle
    have heq : writeBytes .out bytes w = _ := writeBytes_of_eq hs
    obtain rfl : bytes = [] := List.length_eq_zero_iff.1 (Nat.le_zero.1 hle)
    rw [heq]
    exact ⟨rfl, hs', hw.err⟩
  · obtain ⟨f, s, hs, hs'⟩ := hw.out.write_of_lt (Nat.not_le.1 hle)
    have heq : writeBytes .out bytes w = _ := writeBytes_of_eq_fault hs
    rw [heq]
    exact ⟨rfl, hs', hw.err⟩

theorem bounded_writeBytes_out (bytes : List UInt8) :
    Bounded (writeBytes .out bytes : Action σ Fault Unit) where
  cuts room w w' hw := by
    obtain ⟨s, hs, hs'⟩ := hw.wide.out.write bytes
    have hfull : writeBytes .out bytes w = _ := writeBytes_of_eq hs
    have hlength : (Trace.written .out [.wrote .out bytes]).length = bytes.length := by
      simp [Trace.written]
    rw [hfull]
    by_cases hle : bytes.length ≤ room
    · obtain ⟨t, ht, ht'⟩ := hw.out.write_of_le hle
      have hcut : writeBytes .out bytes w' = _ := writeBytes_of_eq ht
      rw [hcut]
      refine .whole (room - bytes.length) ?_ rfl rfl (by simp)
        ⟨⟨hs', hw.wide.err⟩, ht', hw.err, hw.system⟩
      rw [hlength]
      omega
    · obtain ⟨f, t, ht, ht'⟩ := hw.out.write_of_lt (Nat.not_le.1 hle)
      have hcut : writeBytes .out bytes w' = _ := writeBytes_of_eq_fault ht
      rw [hcut]
      refine .short ?_ ?_ ⟨f, by simp⟩ ⟨ht', hw.err⟩
      · rw [hlength]
        omega
      · simp [Trace.written]
  parched := parched_writeBytes_out bytes

theorem bounded_writeBytes (stream : Stream) (bytes : List UInt8) :
    Bounded (writeBytes stream bytes : Action σ Fault Unit) := by
  cases stream with
  | out => exact bounded_writeBytes_out bytes
  | err => exact bounded_writeBytes_err bytes

theorem bounded_flush (stream : Stream) : Bounded (flush stream : Action σ Fault Unit) := by
  refine ⟨fun room w w' hw => ?_, fun w hw => ?_⟩
  · obtain ⟨s, t, hs, ht, hworld⟩ := hw.flush stream
    have hfull : flush stream w = _ := flush_of_eq hs
    have hcut : flush stream w' = _ := flush_of_eq ht
    rw [hfull, hcut]
    exact .whole room (by simp [Trace.written]) rfl rfl (by simp) hworld
  · obtain ⟨s, hs, hdry⟩ := hw.flush stream
    have heq : flush stream w = _ := flush_of_eq hs
    rw [heq]
    exact ⟨rfl, hdry⟩

/-- Every action of the shell is bounded by a limit on standard output. -/
theorem compositional_bounded (sys : System σ) : Compositional sys fun act => Bounded act where
  pure a := bounded_conclude (.ok a)
  fail e := bounded_conclude (.error e)
  follow := bounded_follow
  prompting := bounded_note rfl (by simp)
  read _ := bounded_note rfl (by simp)
  entered _ := bounded_note rfl (by simp)
  writeBytes := bounded_writeBytes
  flush := bounded_flush
  changeDirectory path := by
    apply bounded_of_quiet
    · intro w
      rw [changeDirectory]
      cases sys.changeDirectory path w.system <;> simp [Trace.written]
    · intro w w' h
      rw [changeDirectory, changeDirectory, h]
      cases sys.changeDirectory path w'.system with
      | error f => exact ⟨rfl, rfl, h⟩
      | ok s => exact ⟨rfl, rfl, rfl⟩
  launch args := by
    apply bounded_of_quiet
    · intro w
      exact ⟨rfl, rfl, rfl, by simp [launch]⟩
    · intro w w' h
      simp only [launch, h]
      exact ⟨trivial, trivial, trivial⟩

end Action

/-! ## After a refusal -/

namespace Trace

/-- A byte for standard output is refused, and after the first such refusal nothing is read or
launched. -/
def Stops (events : Trace) : Prop :=
  ∃ before f after, events = before ++ .refused .out f :: after ∧
    (∀ g, .refused .out g ∉ before) ∧ ∀ e ∈ after, ¬ e.Waits

theorem Stops.append_left {first events : Trace} (h : Stops events)
    (hfirst : ∀ g, .refused .out g ∉ first) : Stops (first ++ events) := by
  obtain ⟨before, f, after, rfl, hbefore, hafter⟩ := h
  refine ⟨first ++ before, f, after, (List.append_assoc _ _ _).symm, fun g hg => ?_, hafter⟩
  rcases List.mem_append.1 hg with hg | hg
  · exact hfirst g hg
  · exact hbefore g hg

theorem Stops.append_right {events later : Trace} (h : Stops events)
    (hlater : ∀ e ∈ later, ¬ e.Waits) : Stops (events ++ later) := by
  obtain ⟨before, f, after, rfl, hbefore, hafter⟩ := h
  refine ⟨before, f, after ++ later, by simp, hbefore, fun e he => ?_⟩
  rcases List.mem_append.1 he with he | he
  · exact hafter e he
  · exact hlater e he

end Trace

namespace Shell

variable {settings : Settings} {args : List String} {events : Trace} {f : Fault}

/-- Only help is cut off by a refusal, and the refusal is its last event. -/
theorem Course.stops {answer : Except CommandError Flow}
    (h : Course settings args events answer) (hf : .refused .out f ∈ events) :
    Trace.Stops events ∧ events.launches = [] ∧ ∃ e, answer = .error e := by
  cases h with
  | @helpCut name args done todo line taken g =>
    refine ⟨⟨.entered (name :: args) :: (done.map (lineWritten .out) ++ [.wrote .out taken]), g,
      [], by simp, ?_, by simp⟩, ?_, _, rfl⟩
    · simp [lineWritten]
    · simp [Trace.launches, lineWritten]
  | help => simp [lineWritten] at hf
  | _ => simp at hf

/-- After a refusal there is at most a report, and the session is not told to stop. -/
theorem Told.stops {answer : Except Fault Flow} (h : Told settings args events answer)
    (hf : .refused .out f ∈ events) :
    Trace.Stops events ∧ events.launches = [] ∧ answer ≠ .ok .stop := by
  cases h with
  | done course =>
    obtain ⟨-, -, e, he⟩ := course.stops hf
    cases he
  | reported course =>
    rw [List.mem_append, or_iff_left (by simp [lineWritten])] at hf
    obtain ⟨hstops, hlaunches, -⟩ := course.stops hf
    refine ⟨hstops.append_right (by simp [lineWritten, Event.Waits]), ?_, by simp⟩
    rw [Trace.launches_append, hlaunches]
    rfl
  | unreported course =>
    rw [List.mem_append, or_iff_left (by simp)] at hf
    obtain ⟨hstops, hlaunches, -⟩ := course.stops hf
    refine ⟨hstops.append_right (by simp [Event.Waits]), ?_, by simp⟩
    rw [Trace.launches_append, hlaunches]
    rfl

end Shell

namespace Session

open Input (Item)

variable {sys : System σ} {settings : Settings} {input : List Item} {w : World σ}
  {events : Trace}

theorem stops_greeting (items : List Item) (h : Trace.Stops events ∧ events.launches = []) :
    Trace.Stops (greeting settings ++ .read items :: events) ∧
      (greeting settings ++ .read items :: events).launches = [] := by
  obtain ⟨hstops, hlaunches⟩ := h
  have hsplit : greeting settings ++ .read items :: events
      = (greeting settings ++ [.read items]) ++ events := by simp
  rw [hsplit]
  refine ⟨hstops.append_left (by simp [greeting]), ?_⟩
  rw [Trace.launches_append, hlaunches]
  rfl

/-- A turn in which a byte for standard output is refused reads and launches nothing after that.
The session goes on only if this was in a command, and has launched nothing. -/
theorem Course.stops {verdict : Verdict} {f : Fault} (h : Course settings events verdict)
    (hf : .refused .out f ∈ events) :
    (Trace.Stops events ∧ events.launches = []) ∧ verdict ≠ .ended := by
  cases h with
  | ungreeted course =>
    refine ⟨?_, by simp⟩
    cases course with
    | @promptCut taken g =>
      exact ⟨⟨[.prompting, .wrote .out taken], g, [], rfl, by simp, by simp⟩, rfl⟩
    | promptUnflushed => simp at hf
    | reportsUnflushed => simp at hf
  | unread => simp [greeting] at hf
  | farewell => simp [greeting] at hf
  | @farewellCut items taken g =>
    refine ⟨stops_greeting items ⟨⟨[.wrote .out taken], g, [], rfl, by simp, by simp⟩, rfl⟩,
      by simp⟩
  | @untold items args events g sound told =>
    simp only [greeting, List.mem_append, List.mem_cons, reduceCtorEq, List.not_mem_nil,
      false_or] at hf
    obtain ⟨hstops, hlaunches, -⟩ := told.stops hf
    exact ⟨stops_greeting items ⟨hstops, hlaunches⟩, by simp⟩
  | @unflushed items args events flow g sound told =>
    simp only [greeting, List.mem_append, List.mem_cons, reduceCtorEq, List.not_mem_nil,
      false_or, or_false] at hf
    obtain ⟨hstops, hlaunches, -⟩ := told.stops hf
    refine ⟨stops_greeting items ⟨hstops.append_right (by simp [Event.Waits]), ?_⟩, by simp⟩
    rw [Trace.launches_append, hlaunches]
    rfl
  | @obeyed items args events flow sound told =>
    simp only [greeting, List.mem_append, List.mem_cons, reduceCtorEq, List.not_mem_nil,
      false_or, or_false] at hf
    obtain ⟨hstops, hlaunches, hflow⟩ := told.stops hf
    refine ⟨stops_greeting items ⟨hstops.append_right (by simp [Event.Waits]), ?_⟩, ?_⟩
    · rw [Trace.launches_append, hlaunches]
      rfl
    · cases flow with
      | goOn => simp [Verdict.ofFlow]
      | stop => exact absurd rfl hflow

/-! ## Sessions in a dry world -/

/-- Where standard output takes no more bytes, a turn writes none to it. -/
theorem turn_dry (sys : System σ) (settings : Settings) (input : List Item) (hw : w.Dry) :
    (turn sys settings input w).trace.written .out = [] ∧
      (turn sys settings input w).world.Dry := by
  have hact := (Action.compositional_bounded sys).turnAction settings (Input.readLine input)
  rw [turn_eq]
  exact hact.parched w hw

theorem run_dry (sys : System σ) (settings : Settings) (input : List Item) (w : World σ)
    (hw : w.Dry) : (run sys settings input w).trace.written .out = [] := by
  induction input, w using run_induction sys settings with
  | last input w hgo =>
    obtain ⟨answer, hrun⟩ := run_of_not_goOn hgo
    rw [hrun]
    exact (turn_dry sys settings input hw).1
  | next input w hgo ih =>
    obtain ⟨hnone, hdry⟩ := turn_dry sys settings input hw
    rw [run_of_goOn hgo, Ending.after, Trace.written_append, hnone, ih hdry, List.append_nil]

/-- Where standard output takes no more bytes, a prompt that is not empty cannot be written, and
nothing is read. -/
theorem run_of_dry (sys : System σ) (input : List Item) (hw : w.Dry)
    (hprompt : settings.prompt ≠ "") :
    ∃ taken f e, (run sys settings input w).trace = [.prompting, .wrote .out taken, .refused .out f]
      ∧ (run sys settings input w).answer = .error e := by
  have hne := Utf8.encode_ne_nil hprompt
  obtain ⟨hnone, -⟩ := ((Action.compositional_bounded sys).greet settings).parched w hw
  rcases greet_cases settings w with ⟨w', hg⟩ | ⟨events, e, w', hfail, hg⟩
  · rw [hg] at hnone
    exact absurd hnone (by simpa [Trace.written, greeting] using hne)
  · rw [hg] at hnone
    cases hfail with
    | @promptCut taken f =>
      rw [run_of_ungreeted hg]
      exact ⟨taken, f, .prompt f, rfl, rfl⟩
    | promptUnflushed => exact absurd hnone (by simpa [Trace.written] using hne)
    | reportsUnflushed => exact absurd hnone (by simpa [Trace.written] using hne)

/-! ## Sessions with a limit -/

/-- What a limit on standard output makes of a session. -/
inductive Ending.Cut (settings : Settings) (room : Nat) (full cut : Ending σ) : Prop
  | whole (fits : (full.trace.written .out).length ≤ room) (trace : cut.trace = full.trace)
  | short (lacks : room < (full.trace.written .out).length)
    (written : cut.trace.written .out = (full.trace.written .out).take room)
    (stops : settings.prompt ≠ "" → (∃ e, cut.answer = .error e) ∧ Trace.Stops cut.trace ∧
      cut.trace.launches <+: full.trace.launches)

/-- Events that are the same before both sessions use up some of the room. -/
theorem Ending.Cut.after {room left : Nat} {full cut : Ending σ} {before : Trace}
    (h : full.Cut settings left cut) (hroom : room = (before.written .out).length + left)
    (hbefore : ∀ f, .refused .out f ∉ before) :
    (full.after before).Cut settings room (cut.after before) := by
  have hlength : ((full.after before).trace.written .out).length
      = (before.written .out).length + (full.trace.written .out).length := by
    rw [Ending.after, Trace.written_append, List.length_append]
  rcases h with ⟨hfits, htrace⟩ | ⟨hlacks, hwritten, hstops⟩
  · refine .whole ?_ (congrArg (before ++ ·) htrace)
    rw [hlength]
    omega
  · refine .short ?_ ?_ fun hprompt => ?_
    · rw [hlength]
      omega
    · rw [Ending.after, Ending.after, Trace.written_append, Trace.written_append, hwritten,
        hroom, List.take_length_add_append]
    · obtain ⟨hanswer, hstop, hlaunches⟩ := hstops hprompt
      refine ⟨hanswer, hstop.append_left hbefore, ?_⟩
      rw [Ending.after, Ending.after, Trace.launches_append, Trace.launches_append]
      exact (List.prefix_append_right_inj _).2 hlaunches

/-- A session whose turn is cut off writes nothing more, and if prompts are not empty, it comes no
further than the next one. -/
theorem cut_of_short {room : Nat} {first more : Trace} {full : Ending σ} {w' : World σ}
    (hfull : full.trace = first ++ more) (hlacks : room < (first.written .out).length)
    (hwritten : (turn sys settings input w').trace.written .out = (first.written .out).take room)
    (hrefused : ∃ f, .refused .out f ∈ (turn sys settings input w').trace)
    (hdry : (turn sys settings input w').world.Dry) :
    full.Cut settings room (run sys settings input w') := by
  obtain ⟨f, hf⟩ := hrefused
  obtain ⟨⟨hstops, hlaunches⟩, hended⟩ := (turn_course sys settings input w').stops hf
  have hroom : room < (full.trace.written .out).length := by
    rw [hfull, Trace.written_append, List.length_append]
    omega
  have htake : (full.trace.written .out).take room = (first.written .out).take room := by
    rw [hfull, Trace.written_append, List.take_append_of_le_length (Nat.le_of_lt hlacks)]
  by_cases hgo : (turn sys settings input w').verdict = .goOn
  · refine .short hroom ?_ fun hprompt => ?_
    · rw [run_of_goOn hgo, Ending.after, Trace.written_append, run_dry sys settings _ _ hdry,
        List.append_nil, hwritten, htake]
    · obtain ⟨taken, g, e, htrace, hanswer⟩ := run_of_dry sys
        (turn sys settings input w').unread hdry hprompt
      rw [run_of_goOn hgo, Ending.after, htrace]
      refine ⟨⟨e, hanswer⟩, hstops.append_right (by simp [Event.Waits]), ?_⟩
      rw [Trace.launches_append, hlaunches]
      exact List.nil_prefix
  · obtain ⟨answer, hrun⟩ := run_of_not_goOn hgo
    refine .short hroom ?_ fun _ => ?_
    · rw [hrun, htake]
      exact hwritten
    · have hanswer : ∃ e, (run sys settings input w').answer = .error e := by
        cases hv : (turn sys settings input w').verdict with
        | goOn => exact absurd hv hgo
        | ended => exact absurd hv hended
        | failed e =>
          rw [run_of_failed hv]
          exact ⟨e, rfl⟩
      refine ⟨hanswer, ?_⟩
      rw [hrun, Turn.ending, hlaunches]
      exact ⟨hstops, List.nil_prefix⟩

/-- A turn is the same if there is room for its bytes, and is cut off else. -/
theorem turn_cut (sys : System σ) (settings : Settings) (input : List Item) {room : Nat}
    {w' : World σ} (hw : w.Narrowed room w') :
    (∃ left, room = ((turn sys settings input w).trace.written .out).length + left ∧
      (turn sys settings input w').trace = (turn sys settings input w).trace ∧
      (turn sys settings input w').verdict = (turn sys settings input w).verdict ∧
      (∀ f, .refused .out f ∉ (turn sys settings input w).trace) ∧
      (turn sys settings input w).world.Narrowed left (turn sys settings input w').world) ∨
    (room < ((turn sys settings input w).trace.written .out).length ∧
      (turn sys settings input w').trace.written .out
        = ((turn sys settings input w).trace.written .out).take room ∧
      (∃ f, .refused .out f ∈ (turn sys settings input w').trace) ∧
      (turn sys settings input w').world.Dry) := by
  have hact := (Action.compositional_bounded sys).turnAction settings (Input.readLine input)
  rw [turn_eq sys settings input w, turn_eq sys settings input w']
  rcases hact.cuts room w w' hw with
    ⟨left, hfits, htrace, hanswer, htaken, hworld⟩ | ⟨hlacks, hwritten, hrefused, hdry⟩
  · exact Or.inl ⟨left, hfits, htrace, congrArg Verdict.ofFlow hanswer, htaken, hworld⟩
  · exact Or.inr ⟨hlacks, hwritten, hrefused, hdry⟩

theorem run_cut (sys : System σ) (settings : Settings) (input : List Item) (w : World σ)
    {room : Nat} {w' : World σ} (hw : w.Narrowed room w') :
    (run sys settings input w).Cut settings room (run sys settings input w') := by
  induction input, w using run_induction sys settings generalizing room w' with
  | last input w hgo =>
    obtain ⟨answer, hrun⟩ := run_of_not_goOn hgo
    rcases turn_cut sys settings input hw with
      ⟨left, hfits, htrace, hverdict, -⟩ | ⟨hlacks, hwritten, hrefused, hdry⟩
    · obtain ⟨answer', hrun'⟩ := run_of_not_goOn (by rwa [hverdict])
      rw [hrun, hrun']
      exact .whole (by rw [hfits]; exact Nat.le_add_right _ _) htrace
    · have htrace : (run sys settings input w).trace = (turn sys settings input w).trace ++ [] := by
        rw [hrun, List.append_nil]
        rfl
      exact cut_of_short htrace hlacks hwritten hrefused hdry
  | next input w hgo ih =>
    rcases turn_cut sys settings input hw with
      ⟨left, hfits, htrace, hverdict, htaken, hworld⟩ | ⟨hlacks, hwritten, hrefused, hdry⟩
    · -- both sessions go on, with the room that the turn has left
      have hgo' : (turn sys settings input w').verdict = .goOn := hverdict.trans hgo
      have hunread : (turn sys settings input w').unread = (turn sys settings input w).unread := by
        rw [unread_of_goOn hgo, unread_of_goOn hgo']
      have hlater := ih hworld
      rw [run_of_goOn hgo, run_of_goOn hgo', htrace, hunread]
      exact hlater.after hfits htaken
    · exact cut_of_short (congrArg Ending.trace (run_of_goOn hgo)) hlacks hwritten hrefused hdry

/-- When all works but standard output, which takes `limit` bytes and then refuses, a session writes
the first `limit` bytes of what it writes without the limit, or all of it if that is not more, and
then does all the same. If it has more to write and its prompts are not empty, it ends with an
error, and after the first refusal it reads nothing and launches nothing; so its launches are the
first ones of those without the limit. -/
theorem run_truncated (sys : System σ) (settings : Settings) (input : List Item) (w : World σ)
    (limit : Nat) (refusal : Refusal) (hout : w.out.Reliable) (herr : w.err.Reliable) :
    let full := run sys settings input w
    let cut := run sys settings input { w with out := { w.out with room := some limit, refusal } }
    let size := (full.trace.written .out).length
    cut.trace.written .out = (full.trace.written .out).take (min limit size) ∧
      (size ≤ limit → cut.trace = full.trace) ∧
      (settings.prompt ≠ "" → limit < size →
        (∃ e, cut.answer = .error e) ∧
        (∃ before f after, cut.trace = before ++ .refused .out f :: after ∧
          (∀ g, .refused .out g ∉ before) ∧ (∀ items, .read items ∉ after) ∧
          ∀ args directory output, .launched args directory output ∉ after) ∧
        cut.trace.launches <+: full.trace.launches) := by
  intro full cut size
  have hnarrowed : w.Narrowed limit { w with out := { w.out with room := some limit, refusal } } :=
    ⟨⟨hout, herr⟩, ⟨rfl, hout.takes, hout.flushes⟩, herr, rfl⟩
  rcases run_cut sys settings input w hnarrowed with ⟨hfits, htrace⟩ | ⟨hlacks, hwritten, hstops⟩
  · have hmin : min limit size = size := Nat.min_eq_right hfits
    refine ⟨?_, fun _ => htrace, fun _ hlt => absurd hfits (Nat.not_le.2 hlt)⟩
    rw [hmin, List.take_length]
    exact congrArg (Trace.written .out) htrace
  · have hmin : min limit size = limit := Nat.min_eq_left (Nat.le_of_lt hlacks)
    refine ⟨?_, fun hle => absurd hle (Nat.not_le.2 hlacks), fun hprompt _ => ?_⟩
    · rw [hmin]
      exact hwritten
    · obtain ⟨hanswer, ⟨before, f, after, hsplit, hbefore, hafter⟩, hlaunches⟩ := hstops hprompt
      refine ⟨hanswer, ⟨before, f, after, hsplit, hbefore, ?_, ?_⟩, hlaunches⟩
      · intro items hmem
        exact hafter _ hmem trivial
      · intro args directory output hmem
        exact hafter _ hmem trivial

/-- Streams that always work, and no rules for launches. -/
def plentifulWorld : World Rehearsal := ⟨{}, {}, (⟨⟨[]⟩, []⟩, [])⟩

/-- Help and the launch of a program. -/
def helpThenLaunch : List Item := Input.ofArrivals [.bytes (Utf8.encode "help\nls\n")]

theorem run_truncated_help :
    plentifulWorld.out.Reliable ∧ plentifulWorld.err.Reliable ∧
      ({} : Settings).prompt ≠ "" ∧
      10 < ((run Rehearsal.system {} helpThenLaunch plentifulWorld).trace.written .out).length ∧
      let cut := run Rehearsal.system {} helpThenLaunch
        { plentifulWorld with out := { room := some 10, refusal := .takesNothing } }
      cut.trace.written .out = Utf8.encode "> KPSH\nTyp" ∧ (∃ e, cut.answer = .error e) ∧
        cut.trace.launches <+: [(["ls"], "/")] := by
  have hreliable : Sink.Reliable {} := Sink.reliable_default
  have hprompt : ({} : Settings).prompt ≠ "" := by decide
  have hlimit : 10 < ((run Rehearsal.system {} helpThenLaunch plentifulWorld).trace.written
      .out).length := by decide +kernel
  obtain ⟨hwritten, -, hstops⟩ := run_truncated Rehearsal.system {} helpThenLaunch plentifulWorld
    10 .takesNothing hreliable hreliable
  obtain ⟨hanswer, -, hlaunches⟩ := hstops hprompt hlimit
  have hbytes : ((run Rehearsal.system {} helpThenLaunch plentifulWorld).trace.written .out).take
      (min 10 ((run Rehearsal.system {} helpThenLaunch plentifulWorld).trace.written .out).length)
        = Utf8.encode "> KPSH\nTyp" := by decide +kernel
  have hall : (run Rehearsal.system {} helpThenLaunch plentifulWorld).trace.launches
      = [(["ls"], "/")] := by decide +kernel
  refine ⟨hreliable, hreliable, hprompt, hlimit, hwritten.trans hbytes, hanswer, ?_⟩
  rw [← hall]
  exact hlaunches

end Session
end CommandShell
