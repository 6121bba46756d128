import CommandShell.Proofs.Courses

/-!
# Every event and what is around it

A property of an event in a trace may look at the events before it and at those after it. `Each`
says that all events of a stretch have it, and is computed along the stretch; `Session.run_each`
takes it from the courses of turns to whole sessions.
-/

namespace CommandShell
namespace Trace

variable {P : Trace → Event → Trace → Prop}

/-- Every event of a stretch between `before` and `after` has a property, taken together with all
that comes before the event and all that comes after it. -/
def Each (P : Trace → Event → Trace → Prop) : Trace → Trace → Trace → Prop
  | _, [], _ => True
  | before, e :: rest, after => P before e (rest ++ after) ∧ Each P (before ++ [e]) rest after

theorem each_append {before first second after : Trace} :
    Each P before (first ++ second) after ↔
      Each P before first (second ++ after) ∧ Each P (before ++ first) second after := by
  induction first generalizing before with
  | nil => simp [Each]
  | cons e rest ih =>
    rw [List.cons_append, Each, Each, ih, and_assoc, List.append_assoc, List.append_assoc,
      List.singleton_append]

/-- The property of one event of the stretch. -/
theorem Each.get {before trace after x y : Trace} {e : Event} (h : Each P before trace after)
    (heq : trace = x ++ e :: y) : P (before ++ x) e (y ++ after) := by
  rw [heq, each_append] at h
  exact h.2.1

/-- A property that every event has wherever it stands. -/
theorem each_of_forall {before trace after : Trace}
    (h : ∀ e ∈ trace, ∀ before after, P before e after) : Each P before trace after := by
  induction trace generalizing before with
  | nil => trivial
  | cons e rest ih =>
    exact ⟨h e List.mem_cons_self _ _, ih fun e' he' => h e' (List.mem_cons_of_mem e he')⟩

end Trace

namespace Session

open Input (Item)

variable {σ : Type} {settings : Settings}

/-- Every turn, and so every session, begins with a prompt. -/
theorem Course.exists_prompting {events : Trace} {verdict : Verdict}
    (h : Course settings events verdict) : ∃ rest, events = .prompting :: rest := by
  cases h with
  | ungreeted course => cases course <;> exact ⟨_, rfl⟩
  | _ => exact ⟨_, rfl⟩

theorem exists_prompting (sys : System σ) (settings : Settings) (input : List Item)
    (w : World σ) : ∃ rest, (run sys settings input w).trace = .prompting :: rest := by
  obtain ⟨rest, hrest⟩ := (turn_course sys settings input w).exists_prompting
  by_cases hgo : (turn sys settings input w).verdict = .goOn
  · rw [run_of_goOn hgo, Ending.after, hrest]
    exact ⟨_, rfl⟩
  · obtain ⟨answer, hrun⟩ := run_of_not_goOn hgo
    rw [hrun]
    exact ⟨rest, hrest⟩

/-- What may come after a turn: another turn if the session goes on, and nothing else. -/
def Continues : Verdict → Trace → Prop
  | .goOn, after => ∃ rest, after = .prompting :: rest
  | .ended, after => after = []
  | .failed _, after => after = []

/-- Where every course of a turn has a property at each of its events, every session has it. -/
theorem run_each (sys : System σ) {P : Trace → Event → Trace → Prop}
    (h : ∀ {events verdict}, Course settings events verdict →
      ∀ {before after}, Continues verdict after → Trace.Each P before events after)
    (input : List Item) (w : World σ) (before : Trace) :
    Trace.Each P before (run sys settings input w).trace [] := by
  induction input, w using run_induction sys settings generalizing before with
  | last input w hgo =>
    obtain ⟨answer, hrun⟩ := run_of_not_goOn hgo
    rw [hrun]
    refine h (turn_course sys settings input w) ?_
    cases hv : (turn sys settings input w).verdict with
    | goOn => exact absurd hv hgo
    | ended => rfl
    | failed e => rfl
  | next input w hgo ih =>
    rw [run_of_goOn hgo, Ending.after, Trace.each_append]
    refine ⟨h (turn_course sys settings input w) ?_, ih _⟩
    rw [hgo, List.append_nil]
    exact exists_prompting sys settings _ _

end Session
end CommandShell
