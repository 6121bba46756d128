import CommandShell.Script.Expansion

/-!
# Redirections

A redirection opens a file, or gives a stream the channel of another one. The targets of all
redirections of a command are expanded before the first is carried out; one that fails keeps the
command from being run.
-/

namespace CommandShell
namespace Script
namespace Redirection

/-- A redirection and the text of its target. -/
structure Plan where
  stream : Nat
  direction : Direction
  target : String

/-- Complains about the number of a stream, at the line up to which the script was read. -/
def badStream {α : Type} : Act α := do
  modify fun env => { env with line := env.readUpTo }
  fail "Syntax error: Bad fd number"

/-- Expands the target of a redirection. A stream is named by one digit or closed by a hyphen. -/
def plan (substitute : Expansion.Substitution) (r : Redirection) : Act Plan := do
  match r.direction with
  | .document text true =>
    return ⟨r.stream, r.direction, ← expandDocument substitute text⟩
  | .document text false => return ⟨r.stream, r.direction, String.ofList text⟩
  | .duplicate =>
    let target ← expandWhole substitute r.target
    match target.toList with
    | [c] =>
      if !c.isDigit && c != '-' then badStream
      return ⟨r.stream, r.direction, target⟩
    | _ => badStream
  | direction => return ⟨r.stream, direction, ← expandWhole substitute r.target⟩

/-- What is said about a fault of a file that was to be opened. -/
def reason (f : Fault) (whenMissing : String) : String :=
  if f = .missing ∨ f = .notDirectory then whenMissing else f.sentence

/-- Opens a file for reading. -/
def openForReading (env : Env) (path : String) : Except String Channel :=
  let cannot (text : String) : String := "cannot open " ++ path ++ ": " ++ text
  match env.tree.resolve env.here path with
  | .ok ⟨place, .file _ _⟩ => .ok (.file place 0 false)
  | .ok ⟨_, .directory⟩ => .error (cannot Fault.denied.sentence)
  | .ok ⟨_, .device full⟩ => .ok (.device full)
  | .ok _ => .ok (.device false)
  | .error f => .error (cannot (reason f "No such file"))

/-- Opens a file for writing. Its bytes are kept if `keeps` says so, and if it `protects` files
that are there, they are not opened. -/
def openForWriting (env : Env) (path : String) (keeps appends protects : Bool) :
    Except String (FileTree × Channel) :=
  let cannot (text : String) : String := "cannot create " ++ path ++ ": " ++ text
  match env.tree.resolve env.here path with
  | .ok ⟨_, .device full⟩ => .ok (env.tree, .device full)
  | .ok ⟨place, .file _ executable⟩ =>
    if protects then .error (cannot Fault.present.sentence)
    else
      let tree := if keeps then env.tree else env.tree.insert place (.file [] executable)
      .ok (tree, .file place 0 appends)
  | .ok ⟨_, .directory⟩ => .error (cannot Fault.isDirectory.sentence)
  | .ok _ => .error (cannot Fault.denied.sentence)
  | .error _ =>
    match env.tree.modifyFile env.here path id with
    | .ok (tree, place) => .ok (tree, .file place 0 appends)
    | .error f => .error (cannot (reason f "Directory nonexistent"))

/-- Complains that a redirection cannot be carried out. -/
def refuse (text : String) : Act Bool := do
  complain text
  setStatus mistaken
  return false

/-- Gives a stream a new channel. -/
def connect (stream : Nat) (channel : Channel) : Act Bool := do
  bindStream stream (← newChannel channel)
  return true

/-- Carries out a redirection, and says whether that was possible. If the streams before `areKept`
aside, the one that gets a new channel is closed before a channel is looked for among the others. -/
def carryOut (areKept : Bool) (p : Plan) : Act Bool := do
  let env ← get
  let write (keeps appends protects : Bool) : Act Bool := do
    match openForWriting env p.target keeps appends protects with
    | .error text => refuse text
    | .ok (tree, channel) =>
      modify fun env => { env with tree }
      connect p.stream channel
  match p.direction with
  | .read =>
    match openForReading env p.target with
    | .error text => refuse text
    | .ok channel => connect p.stream channel
  | .write => write false false (env.has 'C')
  | .overwrite => write false false false
  | .append => write true true false
  | .readWrite => write true false false
  | .document _ _ => connect p.stream (.waiting (Utf8.encode p.target))
  | .duplicate =>
    if p.target = "-" then
      closeStream p.stream
      return true
    let number := Signal.numberOf p.target
    if number = p.stream then return true
    match env.streams.lookup number with
    | none =>
      if areKept then closeStream p.stream
      refuse (p.target ++ ": Bad file descriptor")
    | some place =>
      bindStream p.stream place
      return true

/-- Carries out redirections up to the first that is not possible. -/
def carryOutAll (areKept : Bool) : List Plan → Act Bool
  | [] => return true
  | p :: rest => do
    if ← carryOut areKept p then carryOutAll areKept rest
    else return false

/-- Gives the streams that were redirected the channels back that they had before. -/
def restore (plans : List Plan) (before : List (Nat × Nat)) (env : Env) : Env :=
  let isRedirected (entry : Nat × Nat) : Bool := plans.any fun p => p.stream == entry.1
  { env with
    streams := before.filter isRedirected ++ env.streams.filter fun entry => !isRedirected entry }

/-- Does something with redirected streams and restores them; or only restores them, if one could
not be redirected. The answer says whether all could be. -/
def around (substitute : Expansion.Substitution) (redirections : List Redirection)
    (act : Act Unit) : Act Bool := do
  let plans ← redirections.mapM (plan substitute)
  let streams := (← get).streams
  afterwards (restore plans streams) do
    let isPossible ← carryOutAll true plans
    if isPossible then act
    return isPossible

end Redirection
end Script
end CommandShell
