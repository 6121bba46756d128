import CommandShell.Fault

/-!
# Output streams

A sink is an output stream with its limits: how many bytes it still takes, what a write meets
after them, how many bytes one write may take, whether writes are interrupted, and which
flushes fail. `write` hands over a text as a whole: it tries again after an interruption and goes on
after a short write, until every byte is taken or a write fails. The bytes taken before a failure
stay written.
-/

namespace CommandShell

/-- What a write of at least one byte meets when a sink has no room left: a fault, or a write
that takes nothing. A fault that only interrupts would be tried again for ever, so it is none of
these. -/
inductive Refusal where
  | fault (f : Fault) (lasting : f.isInterruption = false)
  | takesNothing
deriving DecidableEq

/-- The fault of a writer whose stream takes nothing. -/
def Fault.takesNothing : Fault := .described "failed to write whole buffer"

/-- The fault with which a refused text ends. -/
def Refusal.toFault : Refusal → Fault
  | fault f _ => f
  | takesNothing => .takesNothing

/-- An output stream. -/
structure Sink where
  /-- The number of bytes it still takes, if that is limited. -/
  room : Option Nat := none
  /-- What a write meets when there is no room. -/
  refusal : Refusal := .takesNothing
  /-- The most bytes that one write takes, if that is limited. -/
  pieceSize : Option Nat := none
  /-- Every other write is interrupted, beginning with the first. -/
  interrupts : Bool := false
  /-- The next write is one of those that are interrupted, if any are. -/
  interruptNext : Bool := true
  /-- The number of flushes so far. -/
  flushes : Nat := 0
  /-- The faults of the flushes that fail. Flushes are counted from one. -/
  failingFlush : Nat → Option Fault := fun _ => none

namespace Sink

/-- Only the flush with this number fails, if there is one. -/
def failingOnce : Option (Nat × Fault) → Nat → Option Fault
  | none, _ => none
  | some (count, f), n => if n = count then some f else none

/-- A single flush that fails can be given by its number. -/
instance : Coe (Option (Nat × Fault)) (Nat → Option Fault) := ⟨failingOnce⟩

/-- The answer of one write. -/
inductive Answer where
  | took (count : Nat)
  | interrupted
  | refused (f : Fault)

/-- One write of `offered` bytes that is not interrupted. -/
def accept (s : Sink) (offered : Nat) : Answer × Sink :=
  match s.room, s.refusal with
  | none, _ => (.took (min offered (s.pieceSize.getD offered)), s)
  | some 0, .fault f _ => (.refused f, s)
  | some 0, .takesNothing => (.took 0, s)
  | some (room + 1), _ =>
    let count := min (min offered (s.pieceSize.getD offered)) (room + 1)
    (.took count, { s with room := some (room + 1 - count) })

/-- One write of `offered` bytes. -/
def offer (s : Sink) (offered : Nat) : Answer × Sink :=
  if s.interrupts && s.interruptNext then (.interrupted, { s with interruptNext := false })
  else { s with interruptNext := true }.accept offered

/-- The bytes that were written of a text, the fault that kept the others back, and the sink
afterwards. -/
structure Written where
  bytes : List UInt8
  fault? : Option Fault
  sink : Sink

/-- The writes that are left to do: two for a byte, one of which may be interrupted. -/
def effort (s : Sink) (bytes : List UInt8) : Nat :=
  2 * bytes.length + if s.interrupts && s.interruptNext then 1 else 0

theorem accept_ne_interrupted (s : Sink) (offered : Nat) :
    (s.accept offered).1 ≠ .interrupted := by
  unfold accept
  split <;> simp

theorem effort_lt_of_interrupted {s after : Sink} {count : Nat}
    (h : s.offer count = (.interrupted, after)) (bytes : List UInt8) :
    after.effort bytes < s.effort bytes := by
  unfold offer at h
  split at h
  · next hs =>
    obtain ⟨-, rfl⟩ := Prod.mk.inj h
    simp [effort, hs]
  · exact absurd (congrArg Prod.fst h) (accept_ne_interrupted _ _)

theorem effort_lt_of_took (s after : Sink) {bytes : List UInt8} (h : bytes ≠ []) (count : Nat) :
    after.effort (bytes.drop (count + 1)) < s.effort bytes := by
  have hpos := List.length_pos_iff.2 h
  simp only [effort, List.length_drop]
  split <;> split <;> omega

/-- Writes a text as a whole. -/
def write (s : Sink) (bytes : List UInt8) : Written :=
  if _h : bytes = [] then ⟨[], none, s⟩
  else match _ho : s.offer bytes.length with
    | (.interrupted, s') => s'.write bytes
    | (.refused f, s') => ⟨[], some f, s'⟩
    | (.took 0, s') => ⟨[], some .takesNothing, s'⟩
    | (.took (count + 1), s') =>
      let later := s'.write (bytes.drop (count + 1))
      ⟨bytes.take (count + 1) ++ later.bytes, later.fault?, later.sink⟩
termination_by s.effort bytes
decreasing_by
  · exact effort_lt_of_interrupted _ho bytes
  · exact effort_lt_of_took s s' _h count

/-- Flushes the stream. A flush is not tried again, whatever its fault. -/
def flush (s : Sink) : Option Fault × Sink :=
  let count := s.flushes + 1
  (s.failingFlush count, { s with flushes := count })

end Sink
end CommandShell
