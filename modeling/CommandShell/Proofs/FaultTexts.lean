import CommandShell.Machine
import CommandShell.Proofs.Rebuilding
import CommandShell.Proofs.Spacing

/-!
# What errors of commands say

The error of a command quotes what was typed and the text of a fault below it, and says the rest in
words of its own (`CommandError.count_message`). Launched processes fail in three ways, each of
which names the program (`Child.conclude_error`). On a machine no fault has a text of more than one
line (`Machine.oneLineFaults`).
-/

namespace CommandShell

open Input (newline_not_mem_ofList)

/-! ## Texts of faults -/

/-- The text of the fault has no newline in it. -/
def Fault.OneLine (f : Fault) : Prop := '\n' ∉ f.text.toList

/-- A number is written by its sign and its digits. -/
theorem not_mem_delimiters_of_mem_toString {n : Int} {c : Char} (h : c ∈ (toString n).toList) :
    c ∉ delimiters := by
  have hdigits : ∀ m : Nat, ∀ d ∈ (Nat.repr m).toList, d ∉ delimiters := by
    intro m d hd hdelimiter
    rw [Nat.toList_repr] at hd
    have hdigit := Nat.isDigit_of_mem_toDigits (by omega) (by omega) hd
    revert hdigit
    revert hdelimiter
    simp only [delimiters, List.mem_cons, List.not_mem_nil, or_false]
    rintro (rfl | rfl | rfl | rfl | rfl) <;> decide
  cases n with
  | ofNat m => exact hdigits m c h
  | negSucc m =>
    have hsign : c ∈ "-".toList ++ (Nat.repr (m + 1)).toList := by
      rw [← String.toList_append]
      exact h
    rcases List.mem_append.1 hsign with hminus | hdigit
    · obtain rfl : c = '-' := by simpa using hminus
      decide
    · exact hdigits _ c hdigit

theorem newline_not_mem_toString (n : Int) : '\n' ∉ (toString n).toList :=
  fun h => not_mem_delimiters_of_mem_toString h (by decide)

/-- One more sentence, given by its characters. -/
theorem newline_not_mem_cons (code : Int) (chars : List Char) {rest : List (Int × String)}
    (h : chars.contains '\n' = false) (hrest : ∀ entry ∈ rest, '\n' ∉ entry.2.toList) :
    ∀ entry ∈ (code, String.ofList chars) :: rest, '\n' ∉ entry.2.toList :=
  List.forall_mem_cons.2 ⟨newline_not_mem_ofList (by simpa using h), hrest⟩

theorem newline_not_mem_systemTexts : ∀ entry ∈ systemTexts, '\n' ∉ entry.2.toList := by
  unfold systemTexts
  repeat apply newline_not_mem_cons _ _ rfl
  exact nofun

theorem newline_not_mem_systemText (code : Int) : '\n' ∉ (systemText code).toList := by
  unfold systemText
  cases hlookup : systemTexts.lookup code with
  | some text =>
    obtain ⟨before, after, hsplit, -⟩ := List.lookup_eq_some_iff.1 hlookup
    exact newline_not_mem_systemTexts (code, text) (by simp [hsplit])
  | none =>
    rw [Option.getD_none, String.toList_append, List.mem_append, not_or]
    exact ⟨newline_not_mem_ofList (by decide), newline_not_mem_toString code⟩

namespace Fault

theorem oneLine_numbered (code : Int) : (numbered code).OneLine := by
  simp only [OneLine, text, String.toList_append, List.mem_append, not_or]
  exact ⟨⟨⟨newline_not_mem_systemText code, newline_not_mem_ofList (by decide)⟩,
    newline_not_mem_toString code⟩, newline_not_mem_ofList (by decide)⟩

theorem oneLine_takesNothing : takesNothing.OneLine :=
  newline_not_mem_ofList (by decide)

end Fault

/-! ## Texts of errors -/

namespace CommandError

/-- What an error quotes of the command. -/
def quoted : CommandError → String
  | missingArgument name => name
  | changeDirectory path _ => path
  | spawn program _ => program
  | wait program _ => program
  | terminated program _ => program
  | stream _ => ""

/-- The text of the fault underneath, if there is one. -/
def causeText (e : CommandError) : String :=
  match e.cause? with
  | some f => f.text
  | none => ""

/-- The words of the messages themselves. -/
def ownWords : List String :=
  ["expected argument to \"", "\"", ": ", ": waiting for the child failed: ",
    ": terminated by signal ", "Io Error <", ">"]

theorem count_ownWords :
    ∀ text ∈ ownWords, ∀ c ∈ delimiters, c ≠ ' ' → text.toList.count c = 0 := by
  have hword : ∀ chars : List Char,
      (delimiters.all fun c => c == ' ' || chars.count c == 0) = true →
      ∀ c ∈ delimiters, c ≠ ' ' → (String.ofList chars).toList.count c = 0 := by
    intro chars h c hc hspace
    have hcount := List.all_eq_true.1 h c hc
    rw [String.toList_ofList]
    simpa [hspace] using hcount
  simp only [ownWords, List.forall_mem_cons]
  exact ⟨hword _ (by decide), hword _ (by decide), hword _ (by decide), hword _ (by decide),
    hword _ (by decide), hword _ (by decide), hword _ (by decide), nofun⟩

/-- A delimiter other than the space comes into a message only by what is quoted and by the fault
underneath. -/
theorem count_message (e : CommandError) {c : Char} (hc : c ∈ delimiters) (hspace : c ≠ ' ') :
    e.message.toList.count c = e.quoted.toList.count c + e.causeText.toList.count c := by
  have hown : ∀ text ∈ ownWords, text.toList.count c = 0 := fun text htext =>
    count_ownWords text htext c hc hspace
  have hsignal : ∀ signal : Int, (toString signal).toList.count c = 0 := fun signal =>
    List.count_eq_zero.2 fun hmem => not_mem_delimiters_of_mem_toString hmem hc
  simp only [ownWords, List.forall_mem_cons] at hown
  obtain ⟨hexpected, hquote, hcolon, hwaiting, hended, hopen, hclose, -⟩ := hown
  unfold message
  cases e <;> simp only [quoted, causeText, cause?, String.toList_append, List.count_append,
    String.toList_empty, List.count_nil, hexpected, hquote, hcolon, hwaiting, hended, hopen, hclose,
    hsignal, Nat.zero_add, Nat.add_zero]

end CommandError

/-! ## Launched processes -/

/-- The ways in which the launch of a process fails. -/
inductive CommandError.OfProcess (program : String) : CommandError → Prop
  | spawn (f : Fault) : OfProcess program (.spawn program f)
  | wait (f : Fault) : OfProcess program (.wait program f)
  | terminated (signal : Int) : OfProcess program (.terminated program signal)

namespace Child

theorem waitForEnd_error {reports : List Report} {f : Fault}
    (h : (waitForEnd reports).1 = .error f) : f = .noChild ∨ .failed f ∈ reports := by
  fun_induction waitForEnd reports with
  | case1 => exact .inl (Except.error.inj h).symm
  | case2 g rest hinterrupted ih => exact (ih h).imp_right (List.mem_cons_of_mem _)
  | case3 g rest hfailed =>
    obtain rfl : g = f := Except.error.inj h
    exact .inr List.mem_cons_self
  | case4 word rest hended => cases h
  | case5 word rest hgoesOn ih => exact (ih h).imp_right (List.mem_cons_of_mem _)

theorem await_error {program : String} {reports : List Report} {e : CommandError}
    (h : (await program reports).answer = .error e) :
    e.OfProcess program ∧ ∀ f, e.cause? = some f → f = .noChild ∨ .failed f ∈ reports := by
  rcases hwait : waitForEnd reports with ⟨f | word, unread⟩
  · rw [await, hwait] at h
    cases h
    refine ⟨.wait f, fun g hg => ?_⟩
    obtain rfl : f = g := Option.some.inj hg
    exact waitForEnd_error (congrArg Prod.fst hwait)
  · rw [await, hwait] at h
    change judge program word = .error e at h
    unfold judge at h
    split at h
    · cases h
      exact ⟨.terminated _, fun g hg => by cases hg⟩
    · cases h

/-- The error of a launch names the program, and its fault is that of the start or of a report, or
says that there is no child. -/
theorem conclude_error {program : String} {started : Except Fault Unit} {reports : List Report}
    {e : CommandError} (h : (conclude program started reports).answer = .error e) :
    e.OfProcess program ∧ ∀ f, e.cause? = some f →
      started = .error f ∨ f = .noChild ∨ .failed f ∈ reports := by
  cases started with
  | error g =>
    cases h
    exact ⟨.spawn g, fun f hf => .inl (congrArg Except.error (Option.some.inj hf))⟩
  | ok u =>
    obtain ⟨hkind, hcause⟩ := await_error h
    exact ⟨hkind, fun f hf => .inr (hcause f hf)⟩

end Child

namespace System

variable {σ : Type}

/-- Launches fail as those of processes do. -/
def LaunchesProcesses (sys : System σ) : Prop :=
  ∀ program rest s e, (sys.launch (program :: rest) s).answer = .error e → e.OfProcess program

/-- No fault of the system has a text of more than one line. -/
structure OneLineFaults (sys : System σ) : Prop where
  changeDirectory : ∀ path s f, sys.changeDirectory path s = .error f → f.OneLine
  launch : ∀ args s e f, (sys.launch args s).answer = .error e → e.cause? = some f → f.OneLine

end System

/-! ## Machines -/

namespace FileTree

variable {t : FileTree} {onward : Bool} {links : Nat} {here : Path} {names : List String}
  {text : String} {f : Fault}

theorem oneLine_walk (h : t.walk onward links here names = .error f) : f.OneLine := by
  fun_induction walk t onward links here names with
  | case1 | case5 | case8 | case11 => cases h
  | case2 | case3 | case7 | case10 =>
    -- the way goes on
    rename_i ih
    exact ih h
  | case4 | case6 | case9 | case12 =>
    cases h
    exact Fault.oneLine_numbered _

theorem oneLine_resolve (h : t.resolve here text = .error f) : f.OneLine := by
  unfold resolve at h
  split at h
  · next hspot =>
    cases h
    unfold spot at hspot
    split at hspot
    · cases hspot
      exact Fault.oneLine_numbered _
    · split at hspot
      · cases hspot
        exact Fault.oneLine_numbered _
      · exact oneLine_walk hspot
  · cases h
    exact Fault.oneLine_numbered _
  · cases h

end FileTree

theorem Standing.oneLine_changeDirectory {s : Standing} {path : String} {f : Fault}
    (h : s.changeDirectory path = .error f) : f.OneLine := by
  unfold changeDirectory at h
  split at h
  · cases h
    exact newline_not_mem_ofList (by decide)
  · split at h
    · next hresolve =>
      cases h
      exact FileTree.oneLine_resolve hresolve
    · cases h
    · cases h
      exact Fault.oneLine_numbered _

namespace Machine

theorem oneLine_load {standing : Standing} {files : Nat} {path : String} {args : List String}
    {f : Fault} (h : load standing files path args = .error f) : f.OneLine := by
  fun_induction load standing files path args with
  | case1 files path args g hresolve =>
    cases h
    exact FileTree.oneLine_resolve hresolve
  | case4 => cases h
  | case7 _ _ _ _ _ _ _ _ _ ih =>
    -- the interpreter is loaded instead
    exact ih h
  | case2 | case3 | case5 | case6 | case8 =>
    cases h
    exact Fault.oneLine_numbered _

theorem oneLine_searchIn {standing : Standing} {name : String} {args : List String}
    {refused : Bool} {last f : Fault} {directories : List String} (hlast : last.OneLine)
    (h : searchIn standing name args refused last directories = .error f) : f.OneLine := by
  fun_induction searchIn standing name args refused last directories with
  | case1 refused last =>
    cases h
    split
    · exact Fault.oneLine_numbered _
    · exact hlast
  | case2 => cases h
  | case3 _ _ _ _ _ _ ih => exact ih (Fault.oneLine_numbered _) h
  | case4 _ _ _ _ _ g hload _ _ ih => exact ih (oneLine_load hload) h
  | case5 _ _ _ _ _ g hload =>
    cases h
    exact oneLine_load hload

theorem oneLine_search {s : Start} {f : Fault} (h : search s = .error f) : f.OneLine := by
  unfold search at h
  split at h
  · exact oneLine_load h
  · split at h
    · cases h
      exact Fault.oneLine_numbered _
    · split at h
      · exact oneLine_load h
      · exact oneLine_searchIn (Fault.oneLine_numbered _) h

theorem oneLine_start {levels : Nat} {s : Start} {f : Fault} (h : start levels s = .error f) :
    f.OneLine := by
  cases levels with
  | zero =>
    cases h
    exact Fault.oneLine_numbered _
  | succ levels =>
    rw [start] at h
    split at h
    · next hsearch =>
      cases h
      exact oneLine_search hsearch
    · dsimp only at h
      split at h <;> cases h

theorem oneLine_startAll {m : Machine} {args : List String} {f : Fault}
    (h : m.startAll args = .error f) : f.OneLine := by
  unfold startAll at h
  split at h
  · cases h
    exact newline_not_mem_ofList (by decide)
  · exact oneLine_start h

/-- A machine reports nothing but that a child has ended. -/
theorem failed_not_mem_reports (m : Machine) (d : Done) (f : Fault) :
    .failed f ∉ m.reports d := by
  unfold reports
  split <;> simp

/-- The launches of a machine are those of processes. -/
theorem launchesProcesses : system.LaunchesProcesses := by
  intro program rest m e h
  change (launch (program :: rest) m).answer = .error e at h
  rw [launch] at h
  split at h <;> exact (Child.conclude_error h).1

/-- No fault of a machine has a text of more than one line. -/
theorem oneLineFaults : system.OneLineFaults where
  changeDirectory path m f h := by
    change (m.standing.changeDirectory path).map _ = .error f at h
    cases hc : m.standing.changeDirectory path with
    | error g =>
      rw [hc] at h
      cases h
      exact Standing.oneLine_changeDirectory hc
    | ok standing =>
      rw [hc] at h
      cases h
  launch args m e f h hf := by
    change (launch args m).answer = .error e at h
    cases args with
    | nil => cases h
    | cons program rest =>
      rw [launch] at h
      split at h
      · next g hstart =>
        rcases (Child.conclude_error h).2 f hf with hstarted | rfl | hfailed
        · cases hstarted
          exact oneLine_startAll hstart
        · exact Fault.oneLine_numbered _
        · exact absurd hfailed List.not_mem_nil
      · next d hstart =>
        rcases (Child.conclude_error h).2 f hf with hstarted | rfl | hfailed
        · cases hstarted
        · exact Fault.oneLine_numbered _
        · exact absurd hfailed (failed_not_mem_reports m d f)

end Machine
end CommandShell
