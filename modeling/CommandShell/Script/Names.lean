import CommandShell.FileTree
import CommandShell.Script.Pattern

/-!
# Names that fit a pattern

A pattern with slashes is taken directory by directory. The names in a directory are looked
through only where a part of the pattern may fit more than one; a name that begins with a point
fits only a part that begins with one.
-/

namespace CommandShell
namespace Script
namespace Pattern

/-- Cuts a pattern at its slashes. -/
def partsOf : List Mark → List (List Mark)
  | [] => [[]]
  | m :: rest =>
    if m.char = '/' then [] :: partsOf rest
    else match partsOf rest with
      | [] => [[m]]
      | part :: parts => (m :: part) :: parts

/-- The names in a directory, with those for itself and for the one above it. The texts say how
the directory is written; an empty one is the place itself. -/
def entries (s : Standing) (directory : String) : List String :=
  match s.tree.resolve s.here (if directory = "" then "." else directory) with
  | .ok ⟨place, .directory⟩ => "." :: ".." :: s.tree.namesIn place
  | _ => []

/-- Something is at a path. -/
def exists? (s : Standing) (path : String) : Bool :=
  match s.tree.spot false s.here path with
  | .ok ⟨_, some _⟩ => true
  | _ => false

/-- The paths that fit the parts of a pattern, after a path that has been found. -/
def pathsFrom (s : Standing) (before : String) : List (List Mark) → List String
  | [] => if exists? s before then [before] else []
  | part :: rest =>
    let pattern := ofMarks part
    let slash := if rest.isEmpty then "" else "/"
    if isOpen pattern then
      let isHidden : Bool := part.head?.map Mark.char = some '.'
      let names := (entries s before).filter fun name =>
        (isHidden || !name.startsWith ".") && fits pattern name.toList
      let sorted := names.mergeSort fun a b => decide (a ≤ b)
      sorted.flatMap fun name => pathsFrom s (before ++ name ++ slash) rest
    else pathsFrom s (before ++ String.ofList (part.map Mark.char) ++ slash) rest

/-- The paths that fit a pattern, in order. -/
def paths (s : Standing) (marks : List Mark) : List String := pathsFrom s "" (partsOf marks)

end Pattern
end Script
end CommandShell
