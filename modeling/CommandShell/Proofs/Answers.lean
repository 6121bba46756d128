import CommandShell.Proofs.Commands

/-!
# What a trace says of the streams and of the input

The events on a stream are what the stream itself answered: a text that it took, a part of a text
and the fault that kept the rest back, a flush and how that ended (`Trace.Answers`). The items of
the reads are those of the input, in order, up to where the session left it
(`Session.run_itemsRead`). So a session has no failure of its own that its surroundings did not
give it, and overlooks none.
-/

namespace CommandShell

/-- The stream that an event is on. -/
def Event.stream? : Event → Option Stream
  | .wrote stream _ => some stream
  | .refused stream _ => some stream
  | .flushed stream _ => some stream
  | _ => none

namespace Trace

/-! ## Streams -/

/-- The events on a stream are what a sink answers, from one state of the sink to another. Other
events do not matter to it. -/
inductive Answers (stream : Stream) : Sink → Trace → Sink → Prop
  | nil (s : Sink) : Answers stream s [] s
  | taken {s s' last : Sink} {bytes : List UInt8} {rest : Trace}
    (answer : s.write bytes = ⟨bytes, none, s'⟩) (later : Answers stream s' rest last) :
    Answers stream s (.wrote stream bytes :: rest) last
  | cut {s s' last : Sink} {text part : List UInt8} {f : Fault} {rest : Trace}
    (answer : s.write text = ⟨part, some f, s'⟩) (later : Answers stream s' rest last) :
    Answers stream s (.wrote stream part :: .refused stream f :: rest) last
  | flushed {s s' last : Sink} {fault? : Option Fault} {rest : Trace}
    (answer : s.flush = (fault?, s')) (later : Answers stream s' rest last) :
    Answers stream s (.flushed stream fault? :: rest) last
  | other {s last : Sink} {e : Event} {rest : Trace}
    (elsewhere : e.stream? ≠ some stream) (later : Answers stream s rest last) :
    Answers stream s (e :: rest) last

variable {stream : Stream} {s s' last : Sink}

theorem Answers.append {first second : Trace} (h : Answers stream s first s')
    (h' : Answers stream s' second last) : Answers stream s (first ++ second) last := by
  induction h with
  | nil => exact h'
  | taken answer _ ih => exact .taken answer (ih h')
  | cut answer _ ih => exact .cut answer (ih h')
  | flushed answer _ ih => exact .flushed answer (ih h')
  | other elsewhere _ ih => exact .other elsewhere (ih h')

/-! ## Reads -/

/-- The items that were taken from the input. -/
def itemsRead (trace : Trace) : List Input.Item :=
  trace.flatMap fun
    | .read items => items
    | _ => []

theorem itemsRead_append (first second : Trace) :
    (first ++ second).itemsRead = first.itemsRead ++ second.itemsRead := by
  rw [itemsRead, List.flatMap_append]
  rfl

theorem itemsRead_eq_nil {trace : Trace} (h : ∀ items, .read items ∉ trace) :
    trace.itemsRead = [] := by
  refine List.flatMap_eq_nil_iff.2 fun e he => ?_
  cases e with
  | read items => exact absurd he (h items)
  | _ => rfl

end Trace

variable {σ : Type}

/-! ## Actions -/

namespace Action

variable {ε α : Type}

/-- The events of the action are what the streams answer. -/
def Reflects (act : Action σ ε α) : Prop :=
  ∀ w stream, Trace.Answers stream (w.sink stream) (act w).trace ((act w).world.sink stream)

theorem reflects_note {e : Event} (h : e.stream? = none) :
    Reflects (note e : Action σ ε Unit) := by
  intro w stream
  refine .other ?_ (.nil _)
  rw [h]
  exact nofun

/-- What a stream does not answer is on the other one. -/
theorem elsewhere_of_ne {stream other : Stream} (h : other ≠ stream) {e : Event}
    (he : e.stream? = some stream) : e.stream? ≠ some other := by
  rw [he]
  exact fun heq => h (Option.some.inj heq).symm

theorem reflects_writeBytes (stream : Stream) (bytes : List UInt8) :
    Reflects (writeBytes stream bytes : Action σ Fault Unit) := by
  intro w other
  by_cases hs : other = stream
  · subst hs
    rw [writeBytes_world, World.sink_setSink]
    rcases hw : (w.sink other).write bytes with ⟨part, _ | f, after⟩
    · -- a write without a fault takes the whole text
      obtain rfl : part = bytes := by
        rcases (w.sink other).write_spec bytes with ⟨-, hall⟩ | ⟨f, hfault, -⟩
        · rwa [hw] at hall
        · rw [hw] at hfault
          cases hfault
      have htrace : (writeBytes other part w).trace = [.wrote other part] := by
        simp only [writeBytes, hw]
      rw [htrace]
      exact .taken hw (.nil _)
    · have htrace : (writeBytes other bytes w).trace
          = [.wrote other part, .refused other f] := by
        simp only [writeBytes, hw]
      rw [htrace]
      exact .cut hw (.nil _)
  · rw [writeBytes_world, World.sink_setSink_of_ne w (Ne.symm hs)]
    rcases writeBytes_cases stream bytes w with ⟨w', hw⟩ | ⟨part, f, w', -, -, hw⟩
    · rw [hw]
      exact .other (elsewhere_of_ne hs rfl) (.nil _)
    · rw [hw]
      exact .other (elsewhere_of_ne hs rfl) (.other (elsewhere_of_ne hs rfl) (.nil _))

theorem reflects_flush (stream : Stream) : Reflects (flush stream : Action σ Fault Unit) := by
  intro w other
  have hworld : (flush stream w : Outcome σ Fault Unit).world
      = w.setSink stream (w.sink stream).flush.2 := rfl
  have htrace : (flush stream w : Outcome σ Fault Unit).trace
      = [.flushed stream (w.sink stream).flush.1] := rfl
  rw [hworld, htrace]
  by_cases hs : other = stream
  · subst hs
    rw [World.sink_setSink]
    exact .flushed rfl (.nil _)
  · rw [World.sink_setSink_of_ne w (Ne.symm hs)]
    exact .other (elsewhere_of_ne hs rfl) (.nil _)

/-- Neither stream changes with the system below. -/
theorem sink_set_system (w : World σ) (s : σ) (stream : Stream) :
    { w with system := s }.sink stream = w.sink stream := by
  cases stream <;> rfl

theorem reflects_changeDirectory (sys : System σ) (path : String) :
    Reflects (changeDirectory sys path) := by
  intro w stream
  rw [changeDirectory]
  cases sys.changeDirectory path w.system with
  | error f => exact .nil _
  | ok s =>
    show Trace.Answers stream _ [] ({ w with system := s }.sink stream)
    rw [sink_set_system]
    exact .nil _

theorem reflects_launch (sys : System σ) (args : List String) :
    Reflects (launch sys args) := by
  intro w stream
  refine .other (fun h => by cases h) ?_
  show Trace.Answers stream _ []
    ({ w with system := (sys.launch args w.system).after }.sink stream)
  rw [sink_set_system]
  exact .nil _

/-- Everything that a shell does shows what the streams answer. -/
theorem compositional_reflects (sys : System σ) : Compositional sys fun act => Reflects act where
  pure _ _ _ := .nil _
  fail _ _ _ := .nil _
  follow hfirst hnext w stream := (hfirst w stream).append (hnext _ _ stream)
  prompting := reflects_note rfl
  read _ := reflects_note rfl
  entered _ := reflects_note rfl
  writeBytes := reflects_writeBytes
  flush := reflects_flush
  changeDirectory := reflects_changeDirectory sys
  launch := reflects_launch sys

end Action

/-! ## Sessions -/

namespace Session

open Input (Item)

theorem run_answers (sys : System σ) (settings : Settings) (input : List Item) (w : World σ)
    (stream : Stream) :
    Trace.Answers stream (w.sink stream) (run sys settings input w).trace
      ((run sys settings input w).world.sink stream) := by
  have hturn : ∀ input w, Trace.Answers stream (w.sink stream) (turn sys settings input w).trace
      ((turn sys settings input w).world.sink stream) := by
    intro input w
    rw [turn_eq]
    exact (Action.compositional_reflects sys).turnAction settings _ w stream
  induction input, w using run_induction sys settings with
  | last input w hgo =>
    obtain ⟨answer, hrun⟩ := run_of_not_goOn hgo
    rw [hrun]
    exact hturn input w
  | next input w hgo ih =>
    rw [run_of_goOn hgo]
    exact (hturn input w).append ih

theorem turn_itemsRead (sys : System σ) (settings : Settings) (input : List Item) (w : World σ) :
    (turn sys settings input w).trace.itemsRead ++ (turn sys settings input w).unread = input := by
  rcases turn_cases sys settings input w with ⟨events, e, w', hfail, ht⟩ | ⟨w', ht⟩
  · rw [ht, Trace.itemsRead_eq_nil hfail.read_not_mem]
    rfl
  · rw [ht]
    have hlater := Trace.itemsRead_eq_nil
      (afterRead_read_not_mem sys settings (Input.readLine input).reading w')
    have hread : (Turn.afterRead sys settings (Input.readLine input) w').trace.itemsRead
        = (Input.readLine input).taken := by
      show (Input.readLine input).taken ++ Trace.itemsRead _ = _
      rw [hlater, List.append_nil]
    rw [hread]
    exact Input.taken_append_rest input

/-- What a session has read and what it has not is the input. -/
theorem run_itemsRead (sys : System σ) (settings : Settings) (input : List Item) (w : World σ) :
    (run sys settings input w).trace.itemsRead ++ (run sys settings input w).unread = input := by
  induction input, w using run_induction sys settings with
  | last input w hgo =>
    obtain ⟨answer, hrun⟩ := run_of_not_goOn hgo
    rw [hrun]
    exact turn_itemsRead sys settings input w
  | next input w hgo ih =>
    rw [run_of_goOn hgo, Ending.after, Trace.itemsRead_append, List.append_assoc]
    exact (congrArg _ ih).trans (turn_itemsRead sys settings input w)

end Session
end CommandShell
