import CommandShell.Machine.Options
import CommandShell.Text.Quotation

/-!
# Utilities for directories

`mkdir` makes directories, `rmdir` removes empty ones, and `pwd` says where it stands.
-/

namespace CommandShell
namespace Utility

/-- What a utility has done to the tree so far, its exit code and its output in reverse. -/
structure Progress where
  tree : FileTree
  code : Nat := 0
  output : List (Stream × List UInt8) := []

namespace Progress

/-- Writes a message to a stream, which for some is not that of complaints. -/
def say (p : Progress) (s : Start) (stream : Stream) (text : String) : Progress :=
  { p with output := (stream, (s.message text).2) :: p.output }

/-- Complains. -/
def fail (p : Progress) (s : Start) (text : String) : Progress :=
  { p.say s .err text with code := 1 }

/-- What is left behind. -/
def done (p : Progress) (s : Start) : Done :=
  { s.leave p.code p.output.reverse with tree := p.tree }

end Progress

/-! ## Making directories -/

namespace Making

/-- The options. -/
def choices : List Choice :=
  [⟨'m', true, some "mode", true⟩, ⟨'p', true, some "parents", false⟩,
    ⟨'v', true, some "verbose", false⟩]

/-- An octal number of at most four digits, or changes to permissions joined by commas. -/
def isMode (text : String) : Bool :=
  let isOctal := text != "" && text.toList.all fun c => (digitOf c).isSome
  let value := text.toList.foldl (fun value c => value * 8 + (digitOf c).getD 0) 0
  let isChange (change : List Char) : Bool :=
    let rest := change.dropWhile "ugoa".toList.contains
    match rest with
    | c :: permissions =>
      "+-=".toList.contains c && permissions.all ("rwxXstugo+-=".toList.contains ·)
    | [] => false
  if isOctal then value < 4096 else (cutAt ',' text.toList).all isChange
where
  /-- The value of an octal digit. -/
  digitOf (c : Char) : Option Nat :=
    if '0' ≤ c ∧ c ≤ '7' then some (c.toNat - '0'.toNat) else none

/-- Makes a directory. -/
def one (s : Start) (verbose : Bool) (p : Progress) (path : String) : Progress :=
  match p.tree.create s.standing.here path .directory with
  | .ok tree =>
    let p := { p with tree }
    if verbose then p.say s .out ("created directory " ++ Quotation.typed path) else p
  | .error f =>
    p.fail s ("cannot create directory " ++ Quotation.escaped path ++ ": " ++ f.sentence)

/-- The beginnings of a path that end before a slash or with it: what has to be there before the
path itself can be made. -/
def above (path : String) : List String :=
  let chars := path.toList
  (List.range chars.length).filterMap fun length =>
    let isCut := chars[length]? = some '/' ∧ chars[length - 1]? ≠ some '/' ∧ 0 < length
    let hasMore := (chars.drop length).any (· ≠ '/')
    if isCut ∧ hasMore then some (String.ofList (chars.take length)) else none

/-- Makes a directory and what has to be there before. What is there already is not touched. -/
def withParents (s : Start) (verbose : Bool) (path : String) :
    List String → Progress → Progress
  | [], p =>
    match p.tree.resolve s.standing.here path with
    | .ok ⟨_, .directory⟩ => p
    | _ => one s verbose p path
  | part :: rest, p =>
    match p.tree.resolve s.standing.here part with
    | .ok ⟨_, .directory⟩ => withParents s verbose path rest p
    | .ok _ =>
      p.fail s ("cannot create directory " ++ Quotation.escaped part ++ ": "
        ++ Fault.notDirectory.sentence)
    | .error _ =>
      let next := one s verbose p part
      if next.code = p.code ∧ (next.tree.resolve s.standing.here part).isOk then
        withParents s verbose path rest next
      else next

end Making

/-- Makes directories. -/
def mkdir (s : Start) : Done :=
  s.withOperands Making.choices fun split =>
    let modes := split.options.filter fun g => g.letter == 'm'
    match modes.getLast?.filter fun g => !Making.isMode g.value with
    | some g => s.leave 1 [s.message ("invalid mode " ++ Quotation.escaped g.value)]
    | none =>
      let verbose := split.has 'v'
      let make (p : Progress) (path : String) : Progress :=
        if split.has 'p' then Making.withParents s verbose path (Making.above path) p
        else Making.one s verbose p path
      (split.operands.foldl make { tree := s.standing.tree }).done s

/-! ## Removing directories -/

namespace Removing

/-- The options. -/
def choices : List Choice :=
  [⟨'i', false, some "ignore-fail-on-non-empty", false⟩, ⟨'p', true, some "parents", false⟩,
    ⟨'v', true, some "verbose", false⟩]

/-- A path without the slashes at its end. -/
def stripped (path : String) : String :=
  match path.toList.reverse.dropWhile (· = '/') with
  | [] => if path = "" then "" else "/"
  | rest => String.ofList rest.reverse

/-- The path of the directory around the last name of a path, if it has more than one. -/
def around? (path : String) : Option String :=
  let before := (path.toList.reverse.dropWhile (· ≠ '/')).dropWhile (· = '/')
  if !path.toList.contains '/' then none
  else if before.isEmpty then some "/"
  else some (String.ofList before.reverse)

/-- Removes the empty directory at a path. The names of a directory for itself and for the one
above it are not taken. -/
def remove (s : Start) (tree : FileTree) (path : String) : Except Fault FileTree :=
  let path := stripped path
  match tree.spot false s.standing.here path, (Path.names path).getLast? with
  | .error f, _ => .error f
  | .ok ⟨_, none⟩, _ => .error .missing
  | .ok ⟨place, some .directory⟩, last =>
    if place = [] ∧ last = some "" then .error .busy
    else if last = some "." then .error .invalid
    else if last = some ".." then .error .notEmpty
    else if tree.isEmptyAt place then .ok (tree.erase place)
    else .error .notEmpty
  | .ok _, _ => .error .notDirectory

/-- What is said about a path that could not be removed. A link to a directory is not followed
even if a slash comes after it. -/
def failure (s : Start) (tree : FileTree) (path : String) (f : Fault) : String :=
  let isLink : Bool := match tree.spot false s.standing.here (stripped path) with
    | .ok ⟨_, some (.link _)⟩ => true
    | _ => false
  let reason :=
    if f = .notDirectory && isLink && path.endsWith "/" then "Symbolic link not followed"
    else f.sentence
  "failed to remove " ++ Quotation.typed path ++ ": " ++ reason

/-- Removes the directories around a path, from the inside, as long as that succeeds. -/
def parents (s : Start) (split : Choice.Split) : (most : Nat) → String → Progress → Progress
  | 0, _, p => p
  | most + 1, path, p =>
    match around? path with
    | none => p
    | some path =>
      let p :=
        if split.has 'v' then
          p.say s .out ("removing directory, " ++ Quotation.typed path)
        else p
      match remove s p.tree path with
      | .ok tree => parents s split most path { p with tree }
      | .error f =>
        if (f = .notEmpty || f = .busy) && split.has 'i' then p
        else
          let what := if f = .notDirectory then "failed to remove " else
            "failed to remove directory "
          p.fail s (what ++ Quotation.typed path ++ ": " ++ f.sentence)

/-- Removes a directory. -/
def one (s : Start) (split : Choice.Split) (p : Progress) (path : String) : Progress :=
  let p :=
    if split.has 'v' then p.say s .out ("removing directory, " ++ Quotation.typed path) else p
  match remove s p.tree path with
  | .error f =>
    if (f = .notEmpty || f = .busy) && split.has 'i' then p
    else p.fail s (failure s p.tree path f)
  | .ok tree =>
    let p := { p with tree }
    if split.has 'p' then parents s split path.length (stripped path) p else p

end Removing

/-- Removes directories. -/
def rmdir (s : Start) : Done :=
  s.withOperands Removing.choices fun split =>
    (split.operands.foldl (Removing.one s split) { tree := s.standing.tree }).done s

/-! ## Saying where one stands -/

/-- Says where it stands. A directory that was removed is no longer found from the one above. -/
def pwd (s : Start) : Done :=
  let choices : List Choice :=
    [⟨'L', true, some "logical", false⟩, ⟨'P', true, some "physical", false⟩]
  s.withOptions choices fun split =>
    let excess :=
      if split.operands.isEmpty then [] else [s.message "ignoring non-option arguments"]
    let logical? := (s.environment.lookup "PWD").filter fun path =>
      (split.options.getLast?.map (·.letter)) = some 'L' && Path.isAbsolute path
        && (Path.names path).all (fun name => name ≠ "." && name ≠ "..")
        && match s.find path with
          | .ok ⟨there, .directory⟩ => there == s.standing.here
          | _ => false
    match logical?, s.standing.tree.node? s.standing.here with
    | some path, _ => s.leave 0 (excess ++ [(.out, Utf8.encode (path ++ "\n"))])
    | none, some .directory =>
      s.leave 0 (excess ++ [(.out, Utf8.encode (s.standing.workingDirectory ++ "\n"))])
    | none, _ =>
      s.leave 1 (excess ++
        [s.message "couldn't find directory entry in '..' with matching i-node"])

end Utility
end CommandShell
