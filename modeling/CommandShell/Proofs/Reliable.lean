import CommandShell.Proofs.Actions
import CommandShell.Proofs.Observation
import CommandShell.Proofs.Sinks

/-!
# Streams that always work

In a world with reliable streams an action leads to what the system below makes of it, and to
nothing else: `Does` says what is seen of an action, its answer, and the state of the system after
it. The rules follow the way in which actions are put together.
-/

namespace CommandShell

/-! ## Sinks -/

namespace Sink

/-- A sink that takes whatever is written, and of which no flush that is still to come fails. -/
structure Reliable (s : Sink) : Prop where
  unlimited : s.room = none
  takes : s.pieceSize ≠ some 0
  flushes : ∀ count, s.flushes < count → s.failingFlush count = none

/-- A sink to which no limits were given is reliable. -/
theorem reliable_default : Reliable {} := ⟨rfl, nofun, fun _ _ => rfl⟩

variable {s : Sink}

/-- A reliable sink takes a text as a whole, and stays reliable. -/
theorem Reliable.write (h : s.Reliable) (bytes : List UInt8) :
    ∃ s', s.write bytes = ⟨bytes, none, s'⟩ ∧ s'.Reliable := by
  obtain ⟨next, hw⟩ := write_of_unlimited h.unlimited h.takes bytes
  exact ⟨_, hw, h.unlimited, h.takes, h.flushes⟩

theorem Reliable.flush (h : s.Reliable) : ∃ s', s.flush = (none, s') ∧ s'.Reliable :=
  ⟨_, flush_of_past h.flushes, h.unlimited, h.takes,
    fun count hlt => h.flushes count (Nat.lt_of_succ_lt hlt)⟩

end Sink

variable {σ : Type}

namespace World

/-- Both streams are reliable. -/
structure Reliable (w : World σ) : Prop where
  out : w.out.Reliable
  err : w.err.Reliable

theorem Reliable.sink {w : World σ} (h : w.Reliable) (stream : Stream) :
    (w.sink stream).Reliable := by
  cases stream with
  | out => exact h.out
  | err => exact h.err

theorem Reliable.setSink {w : World σ} (h : w.Reliable) (stream : Stream) {s : Sink}
    (hs : s.Reliable) : (w.setSink stream s).Reliable := by
  cases stream with
  | out => exact ⟨hs, h.err⟩
  | err => exact ⟨h.out, hs⟩

end World

/-! ## Actions -/

namespace Action

variable {ε ε' α β : Type}

/-- What is seen of an action in a world, its answer, and the state of the system after it. The
streams stay reliable. -/
structure Does (act : Action σ ε α) (w : World σ) (events : Trace) (answer : Except ε α)
    (system : σ) : Prop where
  shows : (act w).trace.seen = events.seen
  answers : (act w).answer = answer
  reliable : (act w).world.Reliable
  leaves : (act w).world.system = system

theorem does_of_eq {act : Action σ ε α} {w w' : World σ} {trace : Trace} {answer : Except ε α}
    (h : act w = ⟨trace, answer, w'⟩) (hw : w'.Reliable) : Does act w trace answer w'.system := by
  refine ⟨?_, ?_, ?_, ?_⟩ <;> rw [h]
  exact hw

/-- Events that are seen as equal can be put in each other's place. -/
theorem Does.congr {act : Action σ ε α} {w : World σ} {events events' : Trace}
    {answer : Except ε α} {system : σ} (h : Does act w events answer system)
    (heq : events.seen = events'.seen) : Does act w events' answer system :=
  ⟨h.shows.trans heq, h.answers, h.reliable, h.leaves⟩

theorem does_pure {w : World σ} {system : σ} (hw : w.Reliable) (hs : w.system = system) (a : α) :
    Does (Action.pure a : Action σ ε α) w [] (.ok a) system := ⟨rfl, rfl, hw, hs⟩

theorem Does.bind {first : Action σ ε α} {next : α → Action σ ε β} {w : World σ}
    {events later : Trace} {a : α} {answer : Except ε β} {system system' : σ}
    (hfirst : Does first w events (.ok a) system)
    (hnext : ∀ w', w'.Reliable → w'.system = system → Does (next a) w' later answer system') :
    Does (first.bind next) w (events ++ later) answer system' := by
  have hnext' := hnext _ hfirst.reliable hfirst.leaves
  have heq : first.bind next w = _ := bind_of_ok hfirst.answers
  refine ⟨?_, ?_, ?_, ?_⟩ <;> rw [heq]
  · exact Trace.seen_append_congr hfirst.shows hnext'.shows
  · exact hnext'.answers
  · exact hnext'.reliable
  · exact hnext'.leaves

theorem Does.bind_error {first : Action σ ε α} {w : World σ} {events : Trace} {e : ε}
    {system : σ} (hfirst : Does first w events (.error e) system) (next : α → Action σ ε β) :
    Does (first.bind next) w events (.error e) system := by
  have heq : first.bind next w = _ := bind_of_error hfirst.answers
  refine ⟨?_, ?_, ?_, ?_⟩ <;> rw [heq]
  · exact hfirst.shows
  · exact hfirst.reliable
  · exact hfirst.leaves

theorem Does.mapError {first : Action σ ε α} {w : World σ} {events : Trace}
    {answer : Except ε α} {system : σ} (h : Does first w events answer system) (f : ε → ε') :
    Does (first.mapError f) w events (answer.mapError f) system :=
  ⟨h.shows, congrArg (Except.mapError f) h.answers, h.reliable, h.leaves⟩

theorem Does.recover {first : Action σ ε α} {next : ε → Action σ ε' α} {w : World σ}
    {events later : Trace} {e : ε} {answer : Except ε' α} {system system' : σ}
    (hfirst : Does first w events (.error e) system)
    (hnext : ∀ w', w'.Reliable → w'.system = system → Does (next e) w' later answer system') :
    Does (first.recover next) w (events ++ later) answer system' := by
  have hnext' := hnext _ hfirst.reliable hfirst.leaves
  have heq : first.recover next w = _ := recover_of_error hfirst.answers
  refine ⟨?_, ?_, ?_, ?_⟩ <;> rw [heq]
  · exact Trace.seen_append_congr hfirst.shows hnext'.shows
  · exact hnext'.answers
  · exact hnext'.reliable
  · exact hnext'.leaves

theorem Does.recover_ok {first : Action σ ε α} {w : World σ} {events : Trace} {a : α}
    {system : σ} (hfirst : Does first w events (.ok a) system) (next : ε → Action σ ε' α) :
    Does (first.recover next) w events (.ok a) system := by
  have heq : first.recover next w = _ := recover_of_ok hfirst.answers
  refine ⟨?_, ?_, ?_, ?_⟩ <;> rw [heq]
  · exact hfirst.shows
  · exact hfirst.reliable
  · exact hfirst.leaves

/-- What is not seen may be noted. -/
theorem does_note {w : World σ} (hw : w.Reliable) {e : Event} (he : Trace.isSeen e = false) :
    Does (note e : Action σ ε Unit) w [] (.ok ()) w.system := by
  refine ⟨?_, rfl, hw, rfl⟩
  rw [note, Trace.seen, List.filter_cons_of_neg (by rw [he]; exact Bool.false_ne_true)]
  rfl

theorem does_writeBytes {w : World σ} (hw : w.Reliable) (stream : Stream) (bytes : List UInt8) :
    Does (writeBytes stream bytes) w [.wrote stream bytes] (.ok ()) w.system := by
  obtain ⟨s', hs', hreliable⟩ := (hw.sink stream).write bytes
  have heq : writeBytes stream bytes w
      = ⟨[.wrote stream bytes], .ok (), w.setSink stream s'⟩ := by
    rw [writeBytes, hs']
  have h := does_of_eq heq (hw.setSink stream hreliable)
  rwa [World.setSink_system] at h

theorem does_flush {w : World σ} (hw : w.Reliable) (stream : Stream) :
    Does (flush stream) w [.flushed stream none] (.ok ()) w.system := by
  obtain ⟨s', hs', hreliable⟩ := (hw.sink stream).flush
  have heq : flush stream w = ⟨[.flushed stream none], .ok (), w.setSink stream s'⟩ := by
    rw [flush, hs']
  have h := does_of_eq heq (hw.setSink stream hreliable)
  rwa [World.setSink_system] at h

/-- Lines are written one by one. -/
theorem does_writeLines {w : World σ} (hw : w.Reliable) (stream : Stream)
    (lines : List String) :
    Does (writeLines stream lines) w (lines.map (lineWritten stream)) (.ok ()) w.system := by
  induction lines generalizing w with
  | nil => exact does_pure hw rfl ()
  | cons line rest ih =>
    refine (does_writeBytes hw stream (Utf8.encode (line ++ "\n"))).bind fun w' hw' hs' => ?_
    rw [← hs']
    exact ih hw'

end Action
end CommandShell
