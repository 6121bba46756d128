import CommandShell.Trace
import Mathlib.Tactic.Common

/-!
# What is seen of traces put together

What is seen of two traces one after the other depends only on what is seen of each
(`seen_append_congr`), and several writes to one stream are seen as one (`seen_writes`). The bytes
written to a stream and the launches are put together as the traces are.
-/

namespace CommandShell
namespace Trace

/-- Joining is associative: it does not matter whether an event is joined to what follows before
or after more comes behind it. -/
theorem foldr_joinCons (e : Event) (trace after : Trace) :
    (joinCons e trace).foldr joinCons after = joinCons e (trace.foldr joinCons after) := by
  rcases e with _ | ⟨s, bytes⟩ | _ | _ | _ | _ | _
  case wrote =>
    rcases trace with _ | ⟨_ | ⟨t, more⟩ | _ | _ | _ | _ | _, rest⟩
    case cons.wrote =>
      -- both sides put three stretches of bytes together, in another order
      by_cases hst : s = t
      · subst hst
        rw [joinCons, if_pos rfl, List.foldr_cons, List.foldr_cons]
        rcases List.foldr joinCons after rest with _ | ⟨_ | ⟨u, last⟩ | _ | _ | _ | _ | _, tail⟩
        case cons.wrote =>
          by_cases hsu : s = u
          · simp [joinCons, hsu]
          · simp [joinCons, hsu]
        all_goals simp [joinCons]
      · rw [joinCons, if_neg hst, List.foldr_cons]
    all_goals rfl
  all_goals rfl

/-- A trace may be joined before more is joined behind it. -/
theorem foldr_joinCons_joined (trace after : Trace) :
    (trace.foldr joinCons []).foldr joinCons after = trace.foldr joinCons after := by
  induction trace with
  | nil => rfl
  | cons e rest ih => rw [List.foldr_cons, List.foldr_cons, foldr_joinCons, ih]

/-- What is seen of two traces is what is seen of the first, joined to what is seen of the
second. -/
theorem seen_append (first second : Trace) :
    (first ++ second).seen = first.seen.foldr joinCons second.seen := by
  rw [seen, List.filter_append, List.foldr_append]
  exact (foldr_joinCons_joined _ _).symm

/-- Traces that are seen as equal can be put in each other's place. -/
theorem seen_append_congr {first first' second second' : Trace}
    (hfirst : first.seen = first'.seen) (hsecond : second.seen = second'.seen) :
    (first ++ second).seen = (first' ++ second').seen := by
  rw [seen_append, seen_append, hfirst, hsecond]

/-- Two writes to one stream are seen as one. -/
theorem seen_wrote_wrote (stream : Stream) (bytes more : List UInt8) :
    seen [.wrote stream bytes, .wrote stream more] = seen [.wrote stream (bytes ++ more)] := by
  cases bytes with
  | nil => cases more <;> rfl
  | cons b bytes =>
    cases more with
    | nil => simp [seen, isSeen, joinCons]
    | cons c more => simp [seen, isSeen, joinCons]

/-- Writes to one stream are seen as one write of all their bytes. -/
theorem seen_writes (stream : Stream) (chunks : List (List UInt8)) :
    seen (chunks.map (.wrote stream)) = seen [.wrote stream chunks.flatten] := by
  induction chunks with
  | nil => rfl
  | cons bytes rest ih =>
    have hfirst : seen [.wrote stream bytes] = seen [.wrote stream bytes] := rfl
    exact (seen_append_congr hfirst ih).trans (seen_wrote_wrote stream bytes rest.flatten)

/-- The bytes written to a stream are put together as the traces are. -/
theorem written_append (stream : Stream) (first second : Trace) :
    (first ++ second).written stream = first.written stream ++ second.written stream := by
  rw [written, List.flatMap_append]
  rfl

/-- The launches of a trace: the arguments, and the directory in which the program was started. -/
def launches (trace : Trace) : List (List String × String) :=
  trace.filterMap fun
    | .launched args directory _ => some (args, directory)
    | _ => none

theorem launches_append (first second : Trace) :
    (first ++ second).launches = first.launches ++ second.launches := by
  rw [launches, List.filterMap_append]
  rfl

end Trace
end CommandShell
