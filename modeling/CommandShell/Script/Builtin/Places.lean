import CommandShell.Script.Builtin.Answer
import CommandShell.Script.Condition
import CommandShell.Script.Permissions

/-!
# Commands about places and files

`cd` goes to another directory and `pwd` says where the script stands. The way to a directory is
kept as it was given, with its links. `test` finds out about files, texts and numbers.
-/

namespace CommandShell
namespace Script
namespace Builtin

/-- Goes through the names of a path and takes dots away. -/
def withoutDots (names : List String) : Path :=
  names.foldl
    (fun path name =>
      if name = "" ∨ name = "." then path
      else if name = ".." then path.dropLast
      else path ++ [name]) []

/-- The path of a directory as it was given, from the top and without dots. Two slashes at the
start are kept. -/
def logicalPath (env : Env) (path : String) : String :=
  let whole := if Path.isAbsolute path then path else env.logical ++ "/" ++ path
  let text := Path.toText (withoutDots (Path.names whole))
  let isDoubled := whole.startsWith "//" && !whole.startsWith "///" && env.logical ≠ "/"
  if isDoubled then "/" ++ text else text

/-- The options that choose between the way as it was given and the way without links. -/
def wayOptions : List (Char × Bool) := [('L', false), ('P', false)]

/-- The last of the options asks for the way without links. -/
def Given.isPhysical (g : Given) : Bool := (g.options.getLast?.map Prod.fst) == some 'P'

/-- The way to the place of the script without links; it is lost if the place was removed. -/
def physicalPath (env : Env) : Option String :=
  if env.tree.node? env.here = some .directory then some env.standing.workingDirectory else none

/-- The way without links. Where it is lost, this is said. -/
def requirePhysical : Act String := do
  match physicalPath (← get) with
  | some path => return path
  | none =>
    complain "getcwd() failed: No such file or directory"
    return ""

/-- Keeps the way to the place of the script, also in a variable. -/
def keepWay (logical : String) : Act Unit := do
  modify fun env => { env with logical }
  assign "PWD" logical true

/-- Goes to a directory. -/
def enter (physical : Bool) (path : String) : Act Bool := do
  let env ← get
  let isLost := env.logical = "" && !Path.isAbsolute path
  let target := if physical || isLost then path else logicalPath env path
  match env.standing.changeDirectory target with
  | .error _ => return false
  | .ok standing =>
    modify fun env => { env with here := standing.here }
    assign "OLDPWD" env.logical true
    keepWay (← if physical || isLost then requirePhysical else pure target)
    return true

/-- The directories that are tried for a path: those of a list, each with the path after it. The
answer also says whether the directory was named in the list. -/
def candidates (env : Env) (path : String) : List (String × Bool) :=
  let first := (Path.names path).headD ""
  let isFixed := Path.isAbsolute path || first = "." || first = ".."
  match (env.value? "CDPATH").filter fun _ => !isFixed with
  | none => [(path, false)]
  | some list =>
    let tried := (partsOf ':' list).map fun directory =>
      if directory = "" then (path, false) else (directory ++ "/" ++ path, true)
    let isThere (entry : String × Bool) : Bool :=
      match env.tree.resolve env.here entry.1 with
      | .ok ⟨_, .directory⟩ => true
      | _ => false
    (tried.filter isThere).take 1 ++ [(path, false)]

/-- Goes to another directory. -/
def cd : Builtin := fun operands => do
  let g ← readOptions wayOptions operands
  let env ← get
  let (path, isBack) := match g.operands with
    | [] => ((env.value? "HOME").getD "", false)
    | "-" :: _ => ((env.value? "OLDPWD").getD "", true)
    | path :: _ => (path, false)
  let path := if path = "" then "." else path
  match candidates env path with
  | [] => return {}
  | (target, isNamed) :: _ =>
    if !(← enter g.isPhysical target) then fail ("can't cd to " ++ path)
    if isBack || isNamed then return .text ((← get).logical ++ "\n")
    return {}

/-- Says where the script stands. -/
def pwd : Builtin := fun operands => do
  let g ← readOptions wayOptions operands
  if g.isPhysical then return .text ((← requirePhysical) ++ "\n")
  return .text ((← get).logical ++ "\n")

/-- Evaluates a condition. -/
def test : Builtin := fun operands => do
  match Condition.evaluate (← get).standing operands with
  | .ok value => return .ofStatus (if value then 0 else 1)
  | .error text => fail text

/-- Evaluates a condition that ends with a bracket. -/
def bracket : Builtin := fun operands => do
  if operands.getLast? ≠ some "]" then fail "missing ]"
  test operands.dropLast

/-- Says which permissions new files do not get. -/
def umask : Builtin := fun operands => do
  let g ← readOptions [('S', false)] operands
  let mask := (← get).mask
  match g.operands with
  | [] =>
    return .text ((if g.has 'S' then Permissions.toLetters mask else Permissions.toDigits mask)
      ++ "\n")
  | text :: _ =>
    let chars := text.toList
    if chars.head?.any Char.isDigit then
      if chars.any fun c => (digitValue? 8 c).isNone then fail ("Illegal number: " ++ text)
      let (value, _, _) := takeDigits 8 chars.length chars
      modify fun env => { env with mask := value % (Permissions.all + 1) }
    else match Permissions.maskAfter? mask chars with
      | some mask => modify fun env => { env with mask }
      | none => fail ("Illegal mode: " ++ text)
    return {}

end Builtin
end Script
end CommandShell
