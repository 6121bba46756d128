import CommandShell.Machine
import CommandShell.Session

/-!
# The shell as a program

A session on a machine whose programs share the streams of the shell. Its input is fetched in
blocks: what is in a fetched block belongs to the shell, and a program that reads its standard
input gets what comes after it. A session that cannot go on is reported, and the exit code says
so.
-/

namespace CommandShell
namespace Program

open Input (Item)

/-- The number of bytes that are fetched at a time. -/
def blockSize : Nat := 8192

/-- How much of the input is not fetched yet, when `unread` items are left to the shell and
`beyond` were not fetched before it read: whole blocks were fetched since. -/
def stillBeyond (beyond unread : Nat) : Nat :=
  beyond - (beyond - unread + blockSize - 1) / blockSize * blockSize

/-- The bytes among some items. -/
def bytesOf (items : List Item) : List UInt8 :=
  items.filterMap fun
    | .byte b => some b
    | _ => none

/-- The unread input of a shell, of which the last `beyond` items are not fetched. -/
structure Feed where
  unread : List Item
  beyond : Nat

namespace Feed

/-- The part that was fetched. -/
def fetched (feed : Feed) : List Item := feed.unread.take (feed.unread.length - feed.beyond)

/-- The part that programs can read. -/
def shared (feed : Feed) : List Item := feed.unread.drop (feed.unread.length - feed.beyond)

/-- Takes items away from the shared part. -/
def takeShared (feed : Feed) (count : Nat) : Feed :=
  ⟨feed.fetched ++ feed.shared.drop count, feed.beyond - count⟩

theorem length_takeShared_le (feed : Feed) (count : Nat) :
    (feed.takeShared count).unread.length ≤ feed.unread.length := by
  simp only [takeShared, fetched, shared, List.length_append, List.length_take, List.length_drop]
  omega

end Feed

/-- A turn of the shell, and the input that it leaves. -/
structure Turn where
  trace : Trace
  verdict : Session.Verdict
  feed : Feed
  world : World Machine

/-- Gives a machine the part of the input that programs can read. -/
def lend (feed : Feed) (w : World Machine) : World Machine :=
  { w with system := { w.system with input := bytesOf feed.shared } }

/-- Takes one turn. -/
def turn (settings : Settings) (feed : Feed) (w : World Machine) : Turn :=
  let asked := Session.ask settings feed.unread w
  let feed : Feed := ⟨asked.unread, stillBeyond feed.beyond asked.unread.length⟩
  let world := lend feed asked.world
  let done := { asked with world }.finish Machine.system settings
  let taken := world.system.input.length - done.world.system.input.length
  ⟨done.trace, done.verdict, feed.takeShared taken, done.world⟩

/-- A turn after which the session goes on has taken a part of the input. -/
theorem length_unread_turn_lt {settings : Settings} {feed : Feed} {w : World Machine}
    (h : (turn settings feed w).verdict = .goOn) :
    (turn settings feed w).feed.unread.length < feed.unread.length := by
  obtain ⟨line, hr⟩ := Session.Asked.exists_command_of_finish h
  exact Nat.lt_of_le_of_lt (Feed.length_takeShared_le _ _) (Session.ask_length_unread_lt hr)

/-- The trace of a session, why it could not go on if that is so, and the world it leaves. -/
structure Ending where
  trace : Trace
  error? : Option SessionError
  world : World Machine

/-- Takes turns until the session ends. -/
def session (settings : Settings) (feed : Feed) (w : World Machine) : Ending :=
  let t := turn settings feed w
  match _h : t.verdict with
  | .ended => ⟨t.trace, none, t.world⟩
  | .failed e => ⟨t.trace, some e, t.world⟩
  | .goOn =>
    let later := session settings t.feed t.world
    ⟨t.trace ++ later.trace, later.error?, later.world⟩
termination_by feed.unread.length
decreasing_by exact length_unread_turn_lt _h

/-- What the program and its children write to the two streams, in order, and its exit code. -/
structure Result where
  output : List (Stream × List UInt8)
  code : Nat

/-- The report of a session that cannot go on. -/
def report (settings : Settings) (e : SessionError) : String :=
  settings.name ++ ": " ++ e.message

/-- The exit code after a report that could be written, and after one that could not. -/
def codeAfter : Except Fault Unit → Nat
  | .ok () => 1
  | .error _ => 101

/-- Runs the shell as a program. -/
def run (settings : Settings) (input : List Item) (w : World Machine) : Result :=
  let ending := session settings ⟨input, input.length⟩ w
  match ending.error? with
  | none => ⟨ending.trace.delivered, 0⟩
  | some e =>
    let last := Action.writeLine .err (report settings e) ending.world
    ⟨(ending.trace ++ last.trace).delivered, codeAfter last.answer⟩

/-- The bytes on one of the two streams. -/
def Result.on (r : Result) (stream : Stream) : List UInt8 := Trace.bytesOn stream r.output

/-- The bytes of both streams, in the order in which they were written. -/
def Result.merged (r : Result) : List UInt8 := r.output.flatMap Prod.snd

end Program
end CommandShell
