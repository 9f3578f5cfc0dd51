import DtoForge.Text.Pieces

/-! # Paths — places in a file tree

A path is a root, or none, and a list of names. Empty names and single points are dropped when a
path is read, and so is every slash of the root but one, unless there are exactly two. -/

namespace DtoForge.Files

/-- A place in a file tree. -/
structure Path where
  /-- The slashes in front; a path without them starts at the working directory. -/
  root : String := ""
  names : List String
  deriving DecidableEq, Repr

namespace Path

/-- Whether a path starts at a root. -/
def isAbsolute (p : Path) : Bool :=
  !p.root.isEmpty

/-- The root of a path that starts with some slashes. -/
def rootOf (slashes : Nat) : String :=
  if slashes = 0 then "" else if slashes = 2 then "//" else "/"

/-- Reads a path. -/
def ofText (s : String) : Path :=
  { root := rootOf (s.toList.takeWhile (· == '/')).length
    names := (Text.split '/' s).filter fun n => n != "" && n != "." }

/-- The text of a path. -/
def text (p : Path) : String :=
  if p.names.isEmpty && !p.isAbsolute then "." else p.root ++ String.intercalate "/" p.names

/-- The path of something below a directory; an absolute path stands for itself. -/
def below (directory : Path) (name : String) : Path :=
  let p := ofText name
  if p.isAbsolute then p else { directory with names := directory.names ++ p.names }

/-- The ending of the last name from its last point on; a name has none if the point is its first
or last character. -/
def extension (p : Path) : String :=
  match p.names.getLast? with
  | none => ""
  | some name =>
    let cs := name.toList
    let tail := (cs.reverse.takeWhile (· != '.')).reverse
    let stem := cs.length - tail.length
    if tail.isEmpty || stem ≤ 1 then "" else String.ofList ('.' :: tail)

end Path

end DtoForge.Files
