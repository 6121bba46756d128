import CommandShell.FileTree.Path
import CommandShell.System

/-!
# File trees

A file tree holds directories, files and symbolic links at their places. A written path is
followed name by name from a starting place; a link on the way puts its target before the names
that are still to come. The last name may be vacant: then the path says where something can be
put. The place a shell stands in is kept even when the directory there is removed: then nothing is
found below it, and the way up still leads out.
-/

namespace CommandShell

/-- What stands at a place of a file tree. -/
inductive Node where
  | directory
  /-- A file with its bytes; it may be marked as executable. -/
  | file (bytes : List UInt8) (executable : Bool)
  | link (target : String)
  /-- An installed program, known by its name. -/
  | program (name : String)
  /-- A device without any bytes, which takes whatever is written to it unless it is full. -/
  | device (full : Bool)
deriving DecidableEq

/-- The nodes of a tree by their places. The top is a directory and is not listed. -/
structure FileTree where
  nodes : List (Path × Node)

namespace FileTree

/-- What stands at a place. -/
def node? (t : FileTree) : Path → Option Node
  | [] => some .directory
  | p => t.nodes.lookup p

/-- Takes away what stands at a place. -/
def erase (t : FileTree) (p : Path) : FileTree := ⟨t.nodes.filter fun entry => entry.1 != p⟩

/-- Puts a node at a place. -/
def insert (t : FileTree) (p : Path) (n : Node) : FileTree := ⟨(p, n) :: (t.erase p).nodes⟩

/-- The names in a directory. -/
def namesIn (t : FileTree) (p : Path) : List String :=
  t.nodes.filterMap fun entry => if entry.1.dropLast = p then entry.1.getLast? else none

/-- A directory has no entries. -/
def isEmptyAt (t : FileTree) (p : Path) : Bool :=
  !(t.nodes.any fun entry => entry.1.dropLast == p)

/-! ## Following paths -/

/-- A place that a path led to, and what stands there. -/
structure Found where
  path : Path
  node : Node

/-- A place that a path led to, and what stands there if it is not vacant. -/
structure Spot where
  path : Path
  node? : Option Node

/-- Follows names from the directory `here`, over at most `links` links. A link at the end is
followed as well if `onward` says so. -/
def walk (t : FileTree) (onward : Bool) (links : Nat) (here : Path) :
    List String → Except Fault Spot
  | [] => .ok ⟨here, some .directory⟩
  | name :: rest =>
    if name = "" ∨ name = "." then t.walk onward links here rest
    else if name = ".." then t.walk onward links here.dropLast rest
    else if Path.longestName < name.utf8ByteSize then .error .nameTooLong
    else match t.node? (here ++ [name]) with
      | none => if rest.all (· = "") then .ok ⟨here ++ [name], none⟩ else .error .missing
      | some .directory => t.walk onward links (here ++ [name]) rest
      | some (.link target) =>
        if rest.isEmpty && !onward then .ok ⟨here ++ [name], some (.link target)⟩
        else match _h : links with
          | 0 => .error .tooManyLinks
          | fewer + 1 =>
            t.walk onward fewer (if Path.isAbsolute target then [] else here)
              (Path.names target ++ rest)
      | some node =>
        if rest.isEmpty then .ok ⟨here ++ [name], some node⟩ else .error .notDirectory
termination_by names => (links, names.length)

/-- Follows a written path from the place `here`, or from the top if it says so. -/
def spot (t : FileTree) (onward : Bool) (here : Path) (text : String) : Except Fault Spot :=
  if text = "" then .error .missing
  else if Path.longestText ≤ text.utf8ByteSize then .error .nameTooLong
  else
    t.walk onward Path.mostLinks (if Path.isAbsolute text then [] else here) (Path.names text)

/-- Follows a written path to something that is there. -/
def resolve (t : FileTree) (here : Path) (text : String) : Except Fault Found :=
  match t.spot true here text with
  | .error f => .error f
  | .ok ⟨_, none⟩ => .error .missing
  | .ok ⟨path, some node⟩ => .ok ⟨path, node⟩

/-! ## Changes by written paths -/

/-- Puts a node at a vacant place. The directory around it may have been removed. -/
def settle (t : FileTree) (p : Path) (n : Node) : Except Fault FileTree :=
  if t.node? p.dropLast = some .directory then .ok (t.insert p n) else .error .missing

/-- Makes an entry in the directory that a written path gives for it. Something that is already
there stays. -/
def create (t : FileTree) (here : Path) (text : String) (node : Node) : Except Fault FileTree :=
  match t.spot false here text with
  | .error f => .error f
  | .ok ⟨_, some _⟩ => .error .present
  | .ok ⟨place, none⟩ => t.settle place node

/-- Gives a file, which may be new, other bytes by a change of those it has. The answer also says
where the file is. -/
def modifyFile (t : FileTree) (here : Path) (text : String)
    (change : List UInt8 → List UInt8) : Except Fault (FileTree × Path) :=
  match t.spot true here text with
  | .error f => .error f
  | .ok ⟨place, none⟩ =>
    if text.endsWith "/" then .error .isDirectory
    else (t.settle place (.file (change []) false)).map fun t => (t, place)
  | .ok ⟨place, some (.file bytes executable)⟩ =>
    .ok (t.insert place (.file (change bytes) executable), place)
  | .ok ⟨place, some (.device _)⟩ => .ok (t, place)
  | .ok ⟨_, some .directory⟩ => .error .isDirectory
  | .ok _ => .error .denied

/-- Marks a file as executable or not. -/
def mark (t : FileTree) (p : Path) (executable : Bool) : FileTree :=
  match t.node? p with
  | some (.file bytes _) => t.insert p (.file bytes executable)
  | _ => t

/-- Goes from the directory `here` along names, and makes every directory that is missing on the
way. -/
def makeWay (t : FileTree) (here : Path) : List String → Except Fault FileTree
  | [] => .ok t
  | name :: rest =>
    match t.walk true Path.mostLinks here [name], t.walk false Path.mostLinks here [name] with
    | .ok ⟨there, some .directory⟩, _ => t.makeWay there rest
    | .ok ⟨_, none⟩, .ok ⟨place, none⟩ =>
      match t.settle place .directory with
      | .error f => .error f
      | .ok t => t.makeWay place rest
    | .error f, _ => .error f
    | .ok _, _ => .error .present

end FileTree

/-- A place to stand in a file tree. -/
structure Standing where
  tree : FileTree
  here : Path

namespace Standing

/-- The system's calls take no text with a NUL character for a path. -/
def nulInPath : Fault := .described "file name contained an unexpected NUL byte"

/-- The directory in which one stands, as the system reports it. -/
def workingDirectory (s : Standing) : String := Path.toText s.here

/-- Goes to the directory that a path leads to. -/
def changeDirectory (path : String) (s : Standing) : Except Fault Standing :=
  if path.toList.contains '\x00' then .error nulInPath
  else match s.tree.resolve s.here path with
    | .error f => .error f
    | .ok ⟨there, .directory⟩ => .ok { s with here := there }
    | .ok _ => .error .notDirectory

/-- The bytes of the file at a path. A directory is not given out for reading. -/
def read (s : Standing) (path : String) : Except Fault (List UInt8) :=
  match s.tree.resolve s.here path with
  | .error f => .error f
  | .ok ⟨_, .file bytes _⟩ => .ok bytes
  | .ok ⟨_, .directory⟩ => .error .denied
  | .ok _ => .ok []

/-- The places of a file tree as directories to stand in. -/
def directories : Directories Standing where
  workingDirectory := workingDirectory
  changeDirectory := changeDirectory

end Standing
end CommandShell
