import CommandShell.Proofs.Compositional
import CommandShell.Proofs.Observation

/-!
# Two sessions side by side

Two sessions may have inputs that differ in what is not heard of them, and worlds that no action
tells apart. If reads keep the one relation (`Input.Congruent`) and actions the other
(`Action.Respects`), then turns do so, and by induction whole sessions (`Session.run_related`): but
for their reads both do the same, they answer alike, and what they leave is related again.
-/

namespace CommandShell

variable {σ : Type}

namespace Trace

/-- The event is a read. -/
def isRead : Event → Bool
  | .read _ => true
  | _ => false

/-- All events but the reads. -/
def withoutReads (trace : Trace) : Trace := trace.filter fun e => !isRead e

theorem withoutReads_append (first second : Trace) :
    (first ++ second).withoutReads = first.withoutReads ++ second.withoutReads :=
  List.filter_append first second

theorem withoutReads_read_cons (items : List Input.Item) (later : Trace) :
    Trace.withoutReads (.read items :: later) = later.withoutReads :=
  List.filter_cons_of_neg Bool.false_ne_true

/-- A read is not seen, whichever items it took. -/
theorem seen_withoutReads (trace : Trace) : trace.withoutReads.seen = trace.seen := by
  have hseen : (fun e => isSeen e && !isRead e) = isSeen := by
    funext e
    cases e <;> simp [isSeen, isRead]
  rw [seen, withoutReads, List.filter_filter, hseen]
  rfl

end Trace

namespace Action

variable {ε α : Type}

/-- The action does the same in related worlds, and leaves them related. -/
def Respects (W : World σ → World σ → Prop) (act : Action σ ε α) : Prop :=
  ∀ w w', W w w' → (act w).trace = (act w').trace ∧ (act w).answer = (act w').answer ∧
    W (act w).world (act w').world

/-- In one and the same world an action does one thing. -/
theorem respects_eq (act : Action σ ε α) : Respects Eq act := by
  rintro w _ rfl
  exact ⟨rfl, rfl, rfl⟩

theorem compositional_respects_eq (sys : System σ) :
    Compositional sys fun act => Respects Eq act where
  pure _ := respects_eq _
  fail _ := respects_eq _
  follow _ _ := respects_eq _
  prompting := respects_eq _
  read _ := respects_eq _
  entered _ := respects_eq _
  writeBytes _ _ := respects_eq _
  flush _ := respects_eq _
  changeDirectory _ := respects_eq _
  launch _ := respects_eq _

end Action

/-- A relation between inputs of which the reads give lines of the same words, or end alike, and
leave related inputs. -/
structure Input.Congruent (R : List Input.Item → List Input.Item → Prop) : Prop where
  reading : ∀ {input input'}, R input input' →
    (readLine input).reading.map words = (readLine input').reading.map words
  rest : ∀ {input input'}, R input input' → R (readLine input).rest (readLine input').rest

namespace Session

open Input (Item)

variable {sys : System σ} {settings : Settings} {R : List Item → List Item → Prop}
  {W : World σ → World σ → Prop} {input input' : List Item} {w w' : World σ}

/-- What a turn does after its read depends on the words of the line. -/
theorem afterRead_congr {reading reading' : Input.Reading String}
    (h : reading.map words = reading'.map words) :
    afterRead sys settings reading = afterRead sys settings reading' := by
  cases reading <;> cases reading' <;> try cases h
  case line.line text text' =>
    have hwords : words text = words text' := Input.Reading.line.inj h
    rw [afterRead, afterRead, obey, obey, hwords]
  case endOfInput.endOfInput => rfl
  case fault.fault f => rfl

/-- Turns that do the same but for their reads, and that leave related inputs and worlds. -/
structure Turn.Related (R : List Item → List Item → Prop) (W : World σ → World σ → Prop)
    (t t' : Turn σ) : Prop where
  does : t.trace.withoutReads = t'.trace.withoutReads
  verdict : t.verdict = t'.verdict
  unread : R t.unread t'.unread
  world : W t.world t'.world

theorem turn_related (hreads : Input.Congruent R)
    (hacts : Compositional sys fun act => Action.Respects W act) (settings : Settings)
    (hin : R input input') (hw : W w w') :
    (turn sys settings input w).Related R W (turn sys settings input' w') := by
  obtain ⟨htrace, hanswer, hworld⟩ := hacts.greet settings w w' hw
  rcases hg : greet settings w with ⟨events, answer, w₁⟩
  rcases hg' : greet settings w' with ⟨events', answer', w₁'⟩
  rw [hg, hg'] at htrace hanswer hworld
  obtain rfl : events = events' := htrace
  obtain rfl : answer = answer' := hanswer
  cases answer with
  | error e =>
    rw [turn_of_greet_error hg, turn_of_greet_error hg']
    exact ⟨rfl, rfl, hin, hworld⟩
  | ok u =>
    obtain ⟨htrace, hanswer, hworld⟩ :=
      hacts.afterRead settings (Input.readLine input').reading w₁ w₁' hworld
    rw [turn_of_greet_ok hg, turn_of_greet_ok hg', afterRead_congr (hreads.reading hin)]
    refine ⟨?_, congrArg Verdict.ofFlow hanswer, hreads.rest hin, hworld⟩
    simp only [Trace.withoutReads_append, Trace.withoutReads_read_cons, htrace]

/-- Sessions that do the same but for their reads, and that leave related inputs and worlds. -/
structure Ending.Related (R : List Item → List Item → Prop) (W : World σ → World σ → Prop)
    (ending ending' : Ending σ) : Prop where
  does : ending.trace.withoutReads = ending'.trace.withoutReads
  answer : ending.answer = ending'.answer
  unread : R ending.unread ending'.unread
  world : W ending.world ending'.world

theorem run_related (hreads : Input.Congruent R)
    (hacts : Compositional sys fun act => Action.Respects W act) (settings : Settings)
    (hin : R input input') (hw : W w w') :
    (run sys settings input w).Related R W (run sys settings input' w') := by
  induction input, w using run_induction sys settings generalizing input' w' with
  | last input w hgo =>
    have ht := turn_related hreads hacts settings hin hw
    have hverdict := ht.verdict
    cases hv : (turn sys settings input w).verdict with
    | goOn => exact absurd hv hgo
    | ended =>
      rw [run_of_ended hv, run_of_ended (hverdict.symm.trans hv)]
      exact ⟨ht.does, rfl, ht.unread, ht.world⟩
    | failed e =>
      rw [run_of_failed hv, run_of_failed (hverdict.symm.trans hv)]
      exact ⟨ht.does, rfl, ht.unread, ht.world⟩
  | next input w hgo ih =>
    have ht := turn_related hreads hacts settings hin hw
    have hlater := ih ht.unread ht.world
    rw [run_of_goOn hgo, run_of_goOn (ht.verdict.symm.trans hgo)]
    refine ⟨?_, hlater.answer, hlater.unread, hlater.world⟩
    simp only [Ending.after, Trace.withoutReads_append, ht.does, hlater.does]

end Session
end CommandShell
