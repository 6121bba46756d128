import CommandShell.Shell
import Mathlib.Tactic.Common

/-!
# Laws of writes and flushes

A write takes the whole text, or it fails and takes less than that; a flush works or fails. The
lemmas here say so once, by the events and the answer that are left, and they say where an error
comes from. Neither touches the system below the shell.
-/

namespace CommandShell

/-! ## Sinks -/

namespace Sink

/-- A write without a fault takes the whole text, one with a fault falls short of it. -/
theorem write_spec (s : Sink) (bytes : List UInt8) :
    ((s.write bytes).fault? = none ∧ (s.write bytes).bytes = bytes) ∨
      ∃ f, (s.write bytes).fault? = some f ∧ (s.write bytes).bytes <+: bytes ∧
        (s.write bytes).bytes.length < bytes.length := by
  fun_induction write s bytes with
  | case1 => exact Or.inl ⟨rfl, rfl⟩
  | case2 s bytes _ after ho ih => exact ih
  | case3 s bytes hne f after ho =>
    exact Or.inr ⟨f, rfl, List.nil_prefix, List.length_pos_iff.2 hne⟩
  | case4 s bytes hne after ho =>
    exact Or.inr ⟨_, rfl, List.nil_prefix, List.length_pos_iff.2 hne⟩
  | case5 s bytes hne count after ho later ih =>
    have hcut := List.take_append_drop (count + 1) bytes
    rcases ih with ⟨hnone, hall⟩ | ⟨f, hsome, hpre, hlt⟩
    · refine Or.inl ⟨hnone, ?_⟩
      simp only [later, hall, hcut]
    · refine Or.inr ⟨f, hsome, ?_, ?_⟩
      · have h := (List.prefix_append_right_inj (bytes.take (count + 1))).2 hpre
        rwa [hcut] at h
      · -- what falls short of the rest falls short of the whole
        have hlen := congrArg List.length hcut
        simp only [later, List.length_append] at hlen ⊢
        omega

end Sink

/-- Neither stream belongs to the system. -/
@[simp] theorem World.setSink_system {σ : Type} (w : World σ) (stream : Stream) (s : Sink) :
    (w.setSink stream s).system = w.system := by
  cases stream <;> rfl

@[simp] theorem World.sink_setSink {σ : Type} (w : World σ) (stream : Stream) (s : Sink) :
    (w.setSink stream s).sink stream = s := by
  cases stream <;> rfl

/-- A stream does not change with the other one. -/
theorem World.sink_setSink_of_ne {σ : Type} (w : World σ) {stream other : Stream}
    (h : other ≠ stream) (s : Sink) : (w.setSink other s).sink stream = w.sink stream := by
  cases stream <;> cases other <;> first | rfl | exact absurd rfl h

namespace Action

variable {σ ε ε' α β : Type}

/-! ## Sequences of actions -/

@[simp] theorem bind_eq (first : Action σ ε α) (next : α → Action σ ε β) :
    (first >>= next) = first.bind next := rfl

@[simp] theorem pure_eq (a : α) : (Pure.pure a : Action σ ε α) = Action.pure a := rfl

/-- What follows an action that succeeds is added to it. -/
theorem bind_of_eq_ok {first : Action σ ε α} {next : α → Action σ ε β} {w w' : World σ}
    {trace : Trace} {a : α} (h : first w = ⟨trace, .ok a, w'⟩) :
    first.bind next w = ⟨trace ++ (next a w').trace, (next a w').answer, (next a w').world⟩ := by
  rw [bind_of_ok (a := a) (by rw [h]), h]

/-- Nothing follows an action that fails. -/
theorem bind_of_eq_error {first : Action σ ε α} {next : α → Action σ ε β} {w w' : World σ}
    {trace : Trace} {e : ε} (h : first w = ⟨trace, .error e, w'⟩) :
    first.bind next w = ⟨trace, .error e, w'⟩ := by
  rw [bind_of_error (e := e) (by rw [h]), h]

theorem mapError_of_eq_ok {f : ε → ε'} {first : Action σ ε α} {w w' : World σ}
    {trace : Trace} {a : α} (h : first w = ⟨trace, .ok a, w'⟩) :
    first.mapError f w = ⟨trace, .ok a, w'⟩ := by
  rw [mapError, h]
  rfl

theorem mapError_of_eq_error {f : ε → ε'} {first : Action σ ε α} {w w' : World σ}
    {trace : Trace} {e : ε} (h : first w = ⟨trace, .error e, w'⟩) :
    first.mapError f w = ⟨trace, .error (f e), w'⟩ := by
  rw [mapError, h]
  rfl

/-- The error of an action whose errors are given another meaning. -/
theorem mapError_error_iff {f : ε → ε'} {act : Action σ ε α} {w : World σ} {e' : ε'} :
    (act.mapError f w).answer = .error e' ↔ ∃ e, (act w).answer = .error e ∧ e' = f e := by
  show (act w).answer.mapError f = .error e' ↔ _
  cases (act w).answer with
  | ok a => simp [Except.mapError]
  | error e => simp [Except.mapError, eq_comm]

theorem mapError_ok_iff {f : ε → ε'} {act : Action σ ε α} {w : World σ} {a : α} :
    (act.mapError f w).answer = .ok a ↔ (act w).answer = .ok a := by
  show (act w).answer.mapError f = .ok a ↔ _
  cases (act w).answer with
  | ok b => simp [Except.mapError]
  | error e => simp [Except.mapError]

/-- An error of two actions is that of the first, or that of the second after the first. -/
theorem bind_error_iff {first : Action σ ε α} {next : α → Action σ ε β} {w : World σ} {e : ε} :
    (first.bind next w).answer = .error e ↔ (first w).answer = .error e ∨
      ∃ a, (first w).answer = .ok a ∧ (next a (first w).world).answer = .error e := by
  cases ha : (first w).answer with
  | ok a =>
    rw [bind_of_ok ha]
    simp
  | error e' =>
    rw [bind_of_error ha]
    simp

/-- What only gives an answer adds no error. -/
theorem bind_pure_error_iff {first : Action σ ε α} {b : β} {w : World σ} {e : ε} :
    (first.bind (fun _ => Action.pure b) w).answer = .error e ↔ (first w).answer = .error e := by
  rw [bind_error_iff]
  refine or_iff_left ?_
  rintro ⟨a, -, hb⟩
  cases hb

/-! ## Writes -/

/-- A write leaves its text in the trace, or what was taken of it and the fault. -/
theorem writeBytes_cases (stream : Stream) (bytes : List UInt8) (w : World σ) :
    (∃ w', writeBytes stream bytes w = ⟨[.wrote stream bytes], .ok (), w'⟩) ∨
      ∃ taken f w', taken <+: bytes ∧ taken.length < bytes.length ∧
        writeBytes stream bytes w
          = ⟨[.wrote stream taken, .refused stream f], .error f, w'⟩ := by
  rcases (w.sink stream).write_spec bytes with ⟨hnone, hall⟩ | ⟨f, hsome, hpre, hlt⟩
  · refine Or.inl ⟨w.setSink stream ((w.sink stream).write bytes).sink, ?_⟩
    simp only [writeBytes, hnone, hall]
  · refine Or.inr ⟨_, f, w.setSink stream ((w.sink stream).write bytes).sink, hpre, hlt, ?_⟩
    simp only [writeBytes, hsome]

/-- A write changes its stream and nothing else. -/
theorem writeBytes_world (stream : Stream) (bytes : List UInt8) (w : World σ) :
    (writeBytes stream bytes w).world
      = w.setSink stream ((w.sink stream).write bytes).sink := by
  cases hf : ((w.sink stream).write bytes).fault? with
  | none => simp only [writeBytes, hf]
  | some f => simp only [writeBytes, hf]

theorem writeBytes_error_iff {stream : Stream} {bytes : List UInt8} {w : World σ} {f : Fault} :
    (writeBytes stream bytes w).answer = .error f ↔
      ((w.sink stream).write bytes).fault? = some f := by
  cases hf : ((w.sink stream).write bytes).fault? with
  | none => simp [writeBytes, hf]
  | some g => simp [writeBytes, hf]

theorem writeBytes_ok_iff {stream : Stream} {bytes : List UInt8} {w : World σ} :
    (writeBytes stream bytes w).answer = .ok () ↔
      ((w.sink stream).write bytes).fault? = none := by
  cases hf : ((w.sink stream).write bytes).fault? with
  | none => simp [writeBytes, hf]
  | some g => simp [writeBytes, hf]

theorem write_cases (stream : Stream) (text : String) (w : World σ) :
    (∃ w', write stream text w = ⟨[.wrote stream (Utf8.encode text)], .ok (), w'⟩) ∨
      ∃ taken f w', taken <+: Utf8.encode text ∧ taken.length < (Utf8.encode text).length ∧
        write stream text w = ⟨[.wrote stream taken, .refused stream f], .error f, w'⟩ :=
  writeBytes_cases stream (Utf8.encode text) w

/-- The event of a line that was written. -/
def lineWritten (stream : Stream) (text : String) : Event :=
  .wrote stream (Utf8.encode (text ++ "\n"))

theorem writeLine_cases (stream : Stream) (text : String) (w : World σ) :
    (∃ w', writeLine stream text w = ⟨[lineWritten stream text], .ok (), w'⟩) ∨
      ∃ taken f w', taken <+: Utf8.encode (text ++ "\n") ∧
        taken.length < (Utf8.encode (text ++ "\n")).length ∧
        writeLine stream text w = ⟨[.wrote stream taken, .refused stream f], .error f, w'⟩ :=
  write_cases stream (text ++ "\n") w

/-- A line that is taken is taken as a whole. -/
theorem writeLine_of_ok {stream : Stream} {text : String} {w : World σ}
    (h : (writeLine stream text w).answer = .ok ()) :
    writeLine stream text w
      = ⟨[lineWritten stream text], .ok (), (writeLine stream text w).world⟩ := by
  rcases writeLine_cases stream text w with ⟨w', hw⟩ | ⟨taken, f, w', -, -, hw⟩
  · rw [hw]
  · rw [hw] at h
    cases h

/-- A line that is not taken as a whole is cut off. -/
theorem writeLine_of_error {stream : Stream} {text : String} {w : World σ} {f : Fault}
    (h : (writeLine stream text w).answer = .error f) :
    ∃ taken, writeLine stream text w
      = ⟨[.wrote stream taken, .refused stream f], .error f, (writeLine stream text w).world⟩ := by
  rcases writeLine_cases stream text w with ⟨w', hw⟩ | ⟨taken, g, w', -, -, hw⟩
  · rw [hw] at h
    cases h
  · rw [hw] at h ⊢
    cases h
    exact ⟨taken, rfl⟩

/-- Lines are written one after the other, up to one that is cut off. -/
theorem writeLines_cases (stream : Stream) (lines : List String) (w : World σ) :
    (∃ w', writeLines stream lines w = ⟨lines.map (lineWritten stream), .ok (), w'⟩) ∨
      ∃ done line todo taken f w', lines = done ++ line :: todo ∧
        taken <+: Utf8.encode (line ++ "\n") ∧
        writeLines stream lines w
          = ⟨done.map (lineWritten stream) ++ [.wrote stream taken, .refused stream f],
              .error f, w'⟩ := by
  induction lines generalizing w with
  | nil => exact Or.inl ⟨w, rfl⟩
  | cons line rest ih =>
    rw [writeLines]
    rcases writeLine_cases stream line w with ⟨w₁, h₁⟩ | ⟨taken, f, w₁, hpre, -, h₁⟩
    · rw [bind_of_eq_ok h₁]
      rcases ih w₁ with ⟨w₂, h₂⟩ | ⟨done, line', todo, taken, f, w₂, rfl, hpre, h₂⟩
      · refine Or.inl ⟨w₂, ?_⟩
        rw [h₂]
        rfl
      · refine Or.inr ⟨line :: done, line', todo, taken, f, w₂, rfl, hpre, ?_⟩
        rw [h₂]
        rfl
    · rw [bind_of_eq_error h₁]
      exact Or.inr ⟨[], line, rest, taken, f, w₁, rfl, hpre, rfl⟩

/-! ## Flushes -/

/-- A flush leaves one event, with its fault if it failed. -/
theorem flush_cases (stream : Stream) (w : World σ) :
    (∃ w', flush stream w = ⟨[.flushed stream none], .ok (), w'⟩) ∨
      ∃ f w', flush stream w = ⟨[.flushed stream (some f)], .error f, w'⟩ := by
  rcases hf : (w.sink stream).flush.1 with _ | f
  · refine Or.inl ⟨w.setSink stream (w.sink stream).flush.2, ?_⟩
    simp only [flush, hf]
  · refine Or.inr ⟨f, w.setSink stream (w.sink stream).flush.2, ?_⟩
    simp only [flush, hf]

theorem flush_error_iff {stream : Stream} {w : World σ} {f : Fault} :
    (flush stream w).answer = .error f ↔ (w.sink stream).flush.1 = some f := by
  cases hf : (w.sink stream).flush.1 with
  | none => simp [flush, hf]
  | some g => simp [flush, hf]

theorem flush_ok_iff {stream : Stream} {w : World σ} :
    (flush stream w).answer = .ok () ↔ (w.sink stream).flush.1 = none := by
  cases hf : (w.sink stream).flush.1 with
  | none => simp [flush, hf]
  | some g => simp [flush, hf]

theorem flush_of_ok {stream : Stream} {w : World σ} (h : (flush stream w).answer = .ok ()) :
    flush stream w = ⟨[.flushed stream none], .ok (), (flush stream w).world⟩ := by
  rcases flush_cases stream w with ⟨w', hw⟩ | ⟨f, w', hw⟩
  · rw [hw]
  · rw [hw] at h
    cases h

theorem flush_of_error {stream : Stream} {w : World σ} {f : Fault}
    (h : (flush stream w).answer = .error f) :
    flush stream w = ⟨[.flushed stream (some f)], .error f, (flush stream w).world⟩ := by
  rcases flush_cases stream w with ⟨w', hw⟩ | ⟨g, w', hw⟩
  · rw [hw] at h
    cases h
  · rw [hw] at h ⊢
    cases h
    rfl

/-! ## Changes of directory -/

theorem changeDirectory_error_iff {sys : System σ} {path : String} {w : World σ} {f : Fault} :
    (changeDirectory sys path w).answer = .error f ↔
      sys.changeDirectory path w.system = .error f := by
  cases hc : sys.changeDirectory path w.system with
  | error g => simp [changeDirectory, hc]
  | ok s => simp [changeDirectory, hc]

end Action
end CommandShell
