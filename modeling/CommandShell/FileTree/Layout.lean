import CommandShell.FileTree
import CommandShell.Text.Utf8

/-!
# Laying out a file tree

The directories and programs that every system has, and how further entries are put below a
place. An entry is put where its path leads to, over links that are already there; one that cannot
be put anywhere is left out.
-/

namespace CommandShell
namespace FileTree

/-- Something to be put into a tree, at a path from some place. -/
inductive Entry where
  | directory (path : String)
  | file (path : String) (text : String) (executable : Bool)
  | link (path : String) (target : String)

/-- Puts an entry into a tree, with its path from the place `here`. A directory brings the
directories above it along, and a file replaces what a file there held before. -/
def plant (here : Path) (t : FileTree) (e : Entry) : FileTree :=
  let planted : Except Fault FileTree :=
    match e with
    | .directory path =>
      t.makeWay (if Path.isAbsolute path then [] else here) (Path.names path)
    | .file path text executable =>
      (t.modifyFile here path fun _ => Utf8.encode text).map fun (t, place) =>
        t.mark place executable
    | .link path target => t.create here path (.link target)
  match planted with
  | .ok t => t
  | .error _ => t

/-- Puts entries into a tree, one after the other. -/
def plantAll (here : Path) (t : FileTree) (entries : List Entry) : FileTree :=
  entries.foldl (plant here) t

/-- The directories and links that every system has. -/
def standardEntries : List Entry :=
  ["/dev", "/etc", "/home", "/opt", "/proc", "/root", "/run", "/sys", "/tmp", "/usr/bin",
    "/usr/lib", "/usr/local/bin", "/usr/sbin", "/usr/share", "/var/lib", "/var/tmp"].map .directory
  ++ [.link "/bin" "usr/bin", .link "/sbin" "usr/sbin", .link "/lib" "usr/lib"]

/-- The programs that are installed. -/
def installed : List String :=
  ["cat", "echo", "false", "mkdir", "printf", "pwd", "rmdir", "sh", "sleep", "true"]

/-- Puts a program into a tree. -/
def install (t : FileTree) (name : String) : FileTree :=
  t.insert ["usr", "bin", name] (.program name)

/-- The directories, programs and devices that every system has. -/
def standard : FileTree :=
  let t := installed.foldl install (plantAll [] ⟨[]⟩ standardEntries)
  (t.insert ["dev", "null"] (.device false)).insert ["dev", "full"] (.device true)

/-- The standard tree with a directory `root` that holds some entries. -/
def withEntries (root : Path) (entries : List Entry) : FileTree :=
  plantAll root (plant [] standard (.directory (Path.toText root))) entries

end FileTree
end CommandShell
