/-!
# Paths

A path is written as names between slashes. A place in a file tree is the list of names that lead
to it from the top, without links, dots and empty names.
-/

namespace CommandShell

/-- Cuts a text at every `sep`. The parts are one more than the separators, and may be empty. -/
def cutAt (sep : Char) : List Char → List (List Char)
  | [] => [[]]
  | c :: rest =>
    if c = sep then [] :: cutAt sep rest
    else match cutAt sep rest with
      | [] => [[c]]
      | part :: parts => (c :: part) :: parts

/-- The parts of a text between separators. -/
def partsOf (sep : Char) (text : String) : List String :=
  (cutAt sep text.toList).map String.ofList

/-- The names from the top of a file tree to one of its places. -/
abbrev Path := List String

namespace Path

/-- The path from the top that leads to a place. -/
def toText (p : Path) : String := "/" ++ String.intercalate "/" p

/-- A written path starts at the top. -/
def isAbsolute (text : String) : Bool := text.toList.head? == some '/'

/-- The names in a written path. -/
def names (text : String) : List String := partsOf '/' text

/-- A name in a directory has at most this many bytes. -/
def longestName : Nat := 255

/-- A written path has fewer bytes than this. -/
def longestText : Nat := 4096

/-- The longest chain of symbolic links that is followed. -/
def mostLinks : Nat := 40

end Path
end CommandShell
