import CommandShell.Session
import CommandShell.Proofs.Reading

/-!
# Runs of turns

A session is a sequence of turns, and all but the last go on. `Reaches` says which turns a session
comes to and what its trace is until then; from there on it is the session that starts with that
turn (`Reaches.run_eq`).
-/

namespace CommandShell
namespace Session

open Input (Item)

variable {σ : Type} {sys : System σ} {settings : Settings} {input : List Item} {w : World σ}

/-! ## The turns of a run -/

/-- The ending of a session, with events that came before its first prompt. -/
def Ending.after (before : Trace) (ending : Ending σ) : Ending σ :=
  { ending with trace := before ++ ending.trace }

theorem Ending.after_after (first second : Trace) (ending : Ending σ) :
    (ending.after second).after first = ending.after (first ++ second) := by
  simp [Ending.after]

/-- The ending of a session at a turn that does not go on. -/
def Turn.ending (t : Turn σ) (answer : Except SessionError Unit) : Ending σ :=
  ⟨t.trace, answer, t.unread, t.world⟩

theorem run_of_goOn (h : (turn sys settings input w).verdict = .goOn) :
    run sys settings input w
      = (run sys settings (turn sys settings input w).unread
          (turn sys settings input w).world).after (turn sys settings input w).trace := by
  rw [run]
  dsimp only
  split
  · next h' => rw [h] at h'; cases h'
  · next e h' => rw [h] at h'; cases h'
  · rfl

theorem run_of_ended (h : (turn sys settings input w).verdict = .ended) :
    run sys settings input w = (turn sys settings input w).ending (.ok ()) := by
  rw [run]
  dsimp only
  split
  · rfl
  · next e h' => rw [h] at h'; cases h'
  · next h' => rw [h] at h'; cases h'

theorem run_of_failed {e : SessionError}
    (h : (turn sys settings input w).verdict = .failed e) :
    run sys settings input w = (turn sys settings input w).ending (.error e) := by
  rw [run]
  dsimp only
  split
  · next h' => rw [h] at h'; cases h'
  · next e' h' =>
    rw [h] at h'
    cases h'
    rfl
  · next h' => rw [h] at h'; cases h'

/-- A turn that does not go on is the last of its session, whose answer it decides. -/
theorem run_of_not_goOn (h : (turn sys settings input w).verdict ≠ .goOn) :
    ∃ answer, run sys settings input w = (turn sys settings input w).ending answer := by
  cases hv : (turn sys settings input w).verdict with
  | goOn => exact absurd hv h
  | ended => exact ⟨_, run_of_ended hv⟩
  | failed e => exact ⟨_, run_of_failed hv⟩

/-- What holds of every last turn, and of a turn before a session for which it holds, holds of
every session. -/
theorem run_induction (sys : System σ) (settings : Settings) {P : List Item → World σ → Prop}
    (last : ∀ input w, (turn sys settings input w).verdict ≠ .goOn → P input w)
    (next : ∀ input w, (turn sys settings input w).verdict = .goOn →
      P (turn sys settings input w).unread (turn sys settings input w).world → P input w)
    (input : List Item) (w : World σ) : P input w := by
  -- a turn that goes on has taken a part of the input
  by_cases h : (turn sys settings input w).verdict = .goOn
  · exact next input w h (run_induction sys settings last next _ _)
  · exact last input w h
termination_by input.length
decreasing_by exact length_unread_lt h

/-! ## The turns that a session comes to -/

/-- A session that starts with `input` in the world `w` comes, after the events `before`, to a
turn with another input in another world. -/
inductive Reaches (sys : System σ) (settings : Settings) :
    List Item → World σ → Trace → List Item → World σ → Prop
  | here (input : List Item) (w : World σ) : Reaches sys settings input w [] input w
  | later {input : List Item} {w : World σ} {before : Trace} {rest : List Item} {w' : World σ} :
    (turn sys settings input w).verdict = .goOn →
    Reaches sys settings (turn sys settings input w).unread (turn sys settings input w).world
      before rest w' →
    Reaches sys settings input w ((turn sys settings input w).trace ++ before) rest w'

variable {before : Trace} {rest : List Item} {w' : World σ}

/-- From a turn that it comes to, a session is the session that starts there. -/
theorem Reaches.run_eq (h : Reaches sys settings input w before rest w') :
    run sys settings input w = (run sys settings rest w').after before := by
  induction h with
  | here => rfl
  | later hgo _ ih => rw [run_of_goOn hgo, ih, Ending.after_after]

/-- After a turn that it comes to and that goes on, a session is the one on what is left. -/
theorem Reaches.run_of_turn_goOn {trace : Trace} {unread : List Item} {w₁ : World σ}
    (h : Reaches sys settings input w before rest w')
    (hturn : turn sys settings rest w' = ⟨trace, .goOn, unread, w₁⟩) :
    run sys settings input w = (run sys settings unread w₁).after (before ++ trace) := by
  have hgo : (turn sys settings rest w').verdict = .goOn := by
    rw [hturn]
  rw [h.run_eq, run_of_goOn hgo, hturn, Ending.after_after]

/-- A turn that it comes to and that fails is the last of a session. -/
theorem Reaches.run_of_turn_failed {trace : Trace} {unread : List Item} {w₁ : World σ}
    {e : SessionError} (h : Reaches sys settings input w before rest w')
    (hturn : turn sys settings rest w' = ⟨trace, .failed e, unread, w₁⟩) :
    run sys settings input w = ⟨before ++ trace, .error e, unread, w₁⟩ := by
  have hfailed : (turn sys settings rest w').verdict = .failed e := by
    rw [hturn]
  rw [h.run_eq, run_of_failed hfailed, hturn]
  rfl

/-! ## The parts of a turn -/

/-- The input that a turn leaves is that which its first half leaves. -/
theorem turn_unread (sys : System σ) (settings : Settings) (input : List Item) (w : World σ) :
    (turn sys settings input w).unread = (ask settings input w).unread :=
  Asked.finish_unread _ _ _

/-- Where a line was read, the turn runs its command. -/
theorem turn_of_command (sys : System σ) {line : String}
    (h : (ask settings input w).request = .command line) :
    turn sys settings input w =
      ⟨(ask settings input w).trace
          ++ (obey sys settings line (ask settings input w).world).trace,
        .ofFlow (obey sys settings line (ask settings input w).world).answer,
        (ask settings input w).unread,
        (obey sys settings line (ask settings input w).world).world⟩ := by
  rw [turn, Asked.finish, h]

end Session
end CommandShell
