import CommandShell.Machine
import Mathlib.Tactic.Common

/-!
# Waiting for the end of a child

A launch waits until a report decides how it ends: a failure of waiting that is no interruption, or
the status of a child that has come to its end. All reports before that one are stepped over
(`Child.await_append`), the one that decides is judged by the low seven bits of its word
(`Child.await_cons`), and none after it is looked at. Whether a child has ended and which signal
ended it are asked separately; the answers agree (`Child.exitCode?_isSome_iff`).
-/

namespace CommandShell
namespace Child

/-! ## Status words -/

/-- The low seven bits of a status word. They name the signal that ended the child. -/
def signalBits (word : UInt32) : Nat := word.toNat % 128

/-- The eight bits of a status word that are an exit code. -/
def codeBits (word : UInt32) : Nat := word.toNat / 256 % 256

theorem toNat_low (word : UInt32) : (word &&& 0x7F).toNat = signalBits word := by
  rw [UInt32.toNat_and]
  exact Nat.and_two_pow_sub_one_eq_mod word.toNat 7

theorem toNat_code (word : UInt32) : ((word >>> 8) &&& 0xFF).toNat = codeBits word := by
  have hshift : (word >>> 8).toNat = word.toNat / 256 := by
    rw [UInt32.toNat_shiftRight]
    exact Nat.shiftRight_eq_div_pow word.toNat 8
  rw [UInt32.toNat_and, hshift]
  exact Nat.and_two_pow_sub_one_eq_mod (word.toNat / 256) 8

theorem low_eq_zero_iff (word : UInt32) : word &&& 0x7F = 0 ↔ signalBits word = 0 := by
  rw [← toNat_low, ← UInt32.toNat_inj]
  rfl

theorem low_eq_ones_iff (word : UInt32) : word &&& 0x7F = 0x7F ↔ signalBits word = 127 := by
  rw [← toNat_low, ← UInt32.toNat_inj]
  rfl

theorem exitCode?_eq (word : UInt32) :
    exitCode? word = if signalBits word = 0 then some (codeBits word) else none := by
  unfold exitCode?
  simp only [low_eq_zero_iff, toNat_code]

theorem endingSignal?_eq (word : UInt32) :
    endingSignal? word =
      if signalBits word = 0 ∨ signalBits word = 127 then none else some (signalBits word) := by
  unfold endingSignal?
  simp only [low_eq_zero_iff, low_eq_ones_iff, toNat_low]

/-- Only a child that has stopped or gone on has not ended. -/
theorem hasEnded_iff (word : UInt32) : hasEnded word = true ↔ signalBits word ≠ 127 := by
  rw [hasEnded, exitCode?_eq, endingSignal?_eq]
  by_cases hzero : signalBits word = 0
  · simp [hzero]
  · simp [hzero]

/-- A child has exited exactly if it has ended and no signal has ended it. -/
theorem exitCode?_isSome_iff (word : UInt32) :
    (exitCode? word).isSome = true ↔ hasEnded word = true ∧ endingSignal? word = none := by
  rw [hasEnded_iff, exitCode?_eq, endingSignal?_eq]
  by_cases hzero : signalBits word = 0
  · simp [hzero]
  · simp [hzero]

/-! ## Reports -/

namespace Report

/-- The report decides how a launch ends. Neither does a child that has only stopped or gone on,
whose low seven bits are all ones, nor an interrupted wait. -/
def Decides : Report → Prop
  | .status word => signalBits word ≠ 127
  | .failed f => f.isInterruption = false

/-- How the launch of `program` ends that a report decides. -/
def verdict (program : String) : Report → Except CommandError Unit
  | .failed f => .error (.wait program f)
  | .status word =>
    if signalBits word = 0 then .ok () else .error (.terminated program (signalBits word))

end Report

theorem judge_eq (program : String) {word : UInt32} (h : signalBits word ≠ 127) :
    judge program word = Report.verdict program (.status word) := by
  rw [judge, endingSignal?_eq, Report.verdict]
  by_cases hzero : signalBits word = 0
  · simp only [if_pos hzero, if_pos (Or.inl hzero)]
  · simp only [if_neg hzero, if_neg (not_or.2 ⟨hzero, h⟩)]

/-- One report: it ends the wait if it decides, and is stepped over if it does not. -/
theorem await_cons (program : String) (r : Report) (rest : List Report) :
    (r.Decides → await program (r :: rest) = ⟨r.verdict program, rest⟩) ∧
      (¬r.Decides → await program (r :: rest) = await program rest) := by
  cases r with
  | failed f =>
    refine ⟨?_, ?_⟩
    · intro h
      have hneg : ¬f.isInterruption = true := by
        rw [h]
        exact Bool.false_ne_true
      rw [await, waitForEnd, if_neg hneg]
      rfl
    · intro h
      rw [await, waitForEnd, if_pos ((Bool.not_eq_false _).mp h), ← await]
  | status word =>
    refine ⟨?_, ?_⟩
    · intro h
      rw [await, waitForEnd, if_pos ((hasEnded_iff word).2 h)]
      exact congrArg (Conclusion.mk · rest) (judge_eq program h)
    · intro h
      have hgoesOn : ¬hasEnded word = true := mt (hasEnded_iff word).1 h
      rw [await, waitForEnd, if_neg hgoesOn, ← await]

/-- A row of reports that decide nothing is stepped over. -/
theorem await_append (program : String) {skipped : List Report}
    (h : ∀ r ∈ skipped, ¬r.Decides) (more : List Report) :
    await program (skipped ++ more) = await program more := by
  induction skipped with
  | nil => rfl
  | cons r skipped ih =>
    have hr : ¬r.Decides := h r List.mem_cons_self
    have hskipped : ∀ r ∈ skipped, ¬r.Decides := fun s hs => h s (List.mem_cons_of_mem r hs)
    rw [List.cons_append, (await_cons program r (skipped ++ more)).2 hr]
    exact ih hskipped

/-- Among reports of which one decides, there is a first one that does. -/
theorem exists_first_decision {reports : List Report} (h : ∃ r ∈ reports, r.Decides) :
    ∃ skipped r rest, reports = skipped ++ r :: rest ∧ (∀ s ∈ skipped, ¬s.Decides) ∧
      r.Decides := by
  induction reports with
  | nil =>
    obtain ⟨r, hmem, -⟩ := h
    exact absurd hmem List.not_mem_nil
  | cons first reports ih =>
    by_cases hfirst : first.Decides
    · exact ⟨[], first, reports, rfl, by simp, hfirst⟩
    · have hlater : ∃ r ∈ reports, r.Decides := by
        obtain ⟨r, hmem, hr⟩ := h
        rcases List.mem_cons.mp hmem with rfl | hmem
        · exact absurd hr hfirst
        · exact ⟨r, hmem, hr⟩
      obtain ⟨skipped, r, rest, rfl, hskipped, hr⟩ := ih hlater
      exact ⟨first :: skipped, r, rest, rfl, List.forall_mem_cons.mpr ⟨hfirst, hskipped⟩, hr⟩

/-- Reports that decide nothing leave the launch without a child to wait for. -/
theorem await_of_undecided (program : String) {reports : List Report}
    (h : ∀ r ∈ reports, ¬r.Decides) :
    await program reports = ⟨.error (.wait program .noChild), []⟩ := by
  have hall := await_append program h []
  rw [List.append_nil] at hall
  exact hall

/-- The first report that decides is the last that is read. -/
theorem await_of_first (program : String) {skipped : List Report} {r : Report}
    (rest : List Report) (hskipped : ∀ s ∈ skipped, ¬s.Decides) (hr : r.Decides) :
    await program (skipped ++ r :: rest) = ⟨r.verdict program, rest⟩ := by
  rw [await_append program hskipped]
  exact (await_cons program r rest).1 hr

/-- An answer that tells of the end of the child comes from a status that did so. -/
theorem exists_status_of_end {program : String} {reports : List Report}
    (h : (await program reports).answer = .ok () ∨
      ∃ name signal, (await program reports).answer = .error (.terminated name signal)) :
    ∃ skipped word rest, reports = skipped ++ .status word :: rest ∧
      (∀ s ∈ skipped, ¬s.Decides) ∧ signalBits word ≠ 127 ∧
      (await program reports).unread = rest := by
  by_cases hany : ∃ r ∈ reports, r.Decides
  · obtain ⟨skipped, r, rest, rfl, hskipped, hr⟩ := exists_first_decision hany
    rw [await_of_first program rest hskipped hr] at h ⊢
    cases r with
    | failed f =>
      rcases h with h | ⟨name, signal, h⟩
      · cases h
      · cases h
    | status word => exact ⟨skipped, word, rest, rfl, hskipped, hr, rfl⟩
  · have hnone : ∀ r ∈ reports, ¬r.Decides := fun r hmem hr => hany ⟨r, hmem, hr⟩
    rw [await_of_undecided program hnone] at h
    rcases h with h | ⟨name, signal, h⟩
    · cases h
    · cases h

/-- The exit code and the bit that tells of a memory dump do not matter, neither to the answer nor
to how many reports are read. -/
theorem await_congr (program : String) (before : List Report) {word word' : UInt32}
    (after : List Report) (h : signalBits word = signalBits word') :
    (await program (before ++ .status word :: after)).answer
        = (await program (before ++ .status word' :: after)).answer ∧
      (await program (before ++ .status word :: after)).unread.length
        = (await program (before ++ .status word' :: after)).unread.length := by
  induction before with
  | nil =>
    have hiff : (Report.status word).Decides ↔ (Report.status word').Decides := by
      rw [Report.Decides, Report.Decides, h]
    rw [List.nil_append, List.nil_append]
    by_cases hw : (Report.status word).Decides
    · rw [(await_cons program _ after).1 hw, (await_cons program _ after).1 (hiff.1 hw)]
      refine ⟨?_, rfl⟩
      rw [Report.verdict, Report.verdict, h]
    · rw [(await_cons program _ after).2 hw, (await_cons program _ after).2 (mt hiff.2 hw)]
      exact ⟨rfl, rfl⟩
  | cons r before ih =>
    rw [List.cons_append, List.cons_append]
    by_cases hr : r.Decides
    · -- neither side comes to the word
      rw [(await_cons program r _).1 hr, (await_cons program r _).1 hr]
      refine ⟨rfl, ?_⟩
      rw [List.length_append, List.length_append]
      rfl
    · rw [(await_cons program r _).2 hr, (await_cons program r _).2 hr]
      exact ih

end Child

namespace Machine

/-- What a machine reports about the child that some arguments start. -/
def waits (m : Machine) (args : List String) : List Child.Report :=
  match m.startAll args with
  | .error _ => []
  | .ok d => m.reports d

theorem launch_answer (m : Machine) (program : String) (others : List String) :
    (m.launch (program :: others)).answer =
      (Child.conclude program ((m.startAll (program :: others)).map fun _ => ())
        (m.waits (program :: others))).answer := by
  unfold launch waits
  cases m.startAll (program :: others) with
  | error f => rfl
  | ok d => rfl

end Machine

namespace Child

/-- The launch of a program that could not be started ends with that fault, and nothing is waited
for. Otherwise the first report that decides ends the launch, with an error if waiting failed, and
else by the low seven bits of the status: zero is a success, and any others are the signal that
ended the child. No report after it is read. Before such a status there is no success and no end by
a signal, and of a status nothing but its low seven bits has any effect: they say whether the child
has ended, and if it has, whether it has exited or which signal has ended it. So a machine
launches. -/
theorem conclude_first_decision (program : String) :
    (∀ f reports,
      conclude program (.error f) reports = ⟨.error (.spawn program f), reports⟩) ∧
    (∀ reports, (∃ r ∈ reports, r.Decides) →
      ∃ skipped r rest, reports = skipped ++ r :: rest ∧ (∀ s ∈ skipped, ¬s.Decides) ∧
        r.Decides ∧ conclude program (.ok ()) reports = ⟨r.verdict program, rest⟩) ∧
    (∀ started reports,
      ((conclude program started reports).answer = .ok () ∨
        ∃ name signal,
          (conclude program started reports).answer = .error (.terminated name signal)) →
      ∃ skipped word rest, started = .ok () ∧ reports = skipped ++ .status word :: rest ∧
        (∀ s ∈ skipped, ¬s.Decides) ∧ signalBits word ≠ 127 ∧
        (conclude program started reports).unread = rest) ∧
    (∀ before word word' after, signalBits word = signalBits word' →
      let ending := conclude program (.ok ()) (before ++ .status word :: after)
      let ending' := conclude program (.ok ()) (before ++ .status word' :: after)
      ending.answer = ending'.answer ∧ ending.unread.length = ending'.unread.length) ∧
    (∀ word, (hasEnded word = true ↔ signalBits word ≠ 127) ∧
      ((exitCode? word).isSome = true ↔ hasEnded word = true ∧ endingSignal? word = none)) ∧
    ∀ (m : Machine) (others : List String),
      (m.launch (program :: others)).answer =
        (conclude program ((m.startAll (program :: others)).map fun _ => ())
          (m.waits (program :: others))).answer := by
  refine ⟨fun f reports => rfl, ?_, ?_, ?_,
    fun word => ⟨hasEnded_iff word, exitCode?_isSome_iff word⟩,
    fun m others => m.launch_answer program others⟩
  · intro reports hany
    obtain ⟨skipped, r, rest, rfl, hskipped, hr⟩ := exists_first_decision hany
    exact ⟨skipped, r, rest, rfl, hskipped, hr, await_of_first program rest hskipped hr⟩
  · intro started reports hend
    cases started with
    | error f =>
      -- a launch that did not start has an error of another kind
      rcases hend with h | ⟨name, signal, h⟩
      · cases h
      · cases h
    | ok u =>
      obtain ⟨skipped, word, rest, hreports, hskipped, hword, hunread⟩ :=
        exists_status_of_end hend
      exact ⟨skipped, word, rest, rfl, hreports, hskipped, hword, hunread⟩
  · intro before word word' after hbits
    exact await_congr program before after hbits

/-- A child that stopped, went on, and was ended by a signal with a memory dump. -/
example : conclude "sh" (.ok ()) [.status 0x137F, .status 0xFFFF, .status 0x8B, .status 0]
    = ⟨.error (.terminated "sh" 11), [.status 0]⟩ := rfl

end Child
end CommandShell
