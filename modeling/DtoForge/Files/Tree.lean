import DtoForge.Files.Path
import DtoForge.Text.Quoted
import DtoForge.Text.Utf8

/-! # File trees — files and directories as a value

A tree lists files and directories by the way that leads to them. Reading, writing and making
directories give the new tree or a fault together with the path at fault. -/

namespace DtoForge.Files

/-- What stands at a path. -/
inductive Node where
  | file (bytes : List UInt8)
  | directory

/-- Faults of file operations. All but the last are reported by the file system. -/
inductive FaultKind where
  | notFound | exists | notDirectory | isDirectory
  /-- A path holds a null character. -/
  | nullCharacter
  deriving DecidableEq, Repr

/-- A fault with its path. -/
structure Fault where
  kind : FaultKind
  path : String
  deriving DecidableEq, Repr

/-- The number under which the file system reports a fault. -/
def FaultKind.number? : FaultKind → Option Nat
  | .notFound => some 2
  | .exists => some 17
  | .notDirectory => some 20
  | .isDirectory => some 21
  | .nullCharacter => none

/-- The wording of a fault. -/
def FaultKind.message : FaultKind → String
  | .notFound => "No such file or directory"
  | .exists => "File exists"
  | .notDirectory => "Not a directory"
  | .isDirectory => "Is a directory"
  | .nullCharacter => "embedded null byte"

/-- Whether a fault is reported by the file system. -/
def Fault.isReported (f : Fault) : Bool :=
  f.kind.number?.isSome

/-- The wording of a fault; one that the file system reports has its number and its path. -/
def Fault.message (f : Fault) : String :=
  match f.kind.number? with
  | some n => "[Errno " ++ toString n ++ "] " ++ f.kind.message ++ ": " ++ Text.quoted f.path
  | none => f.kind.message

/-- Files and directories by the names that lead to them from the working directory. The working
directory, those above it (`..`) and the root (`/`) are always there. -/
structure Tree where
  nodes : List (List String × Node) := []

namespace Tree

/-- Whether a place is the working directory, one above it, or the root. -/
def isGiven (place : List String) : Bool :=
  place == ["/"] || place.all (· == "..")

/-- What stands at a place. -/
def node? (t : Tree) (place : List String) : Option Node :=
  if isGiven place then some .directory
  else (t.nodes.find? fun n => n.1 == place).map (·.2)

/-- The place above another. -/
def above (place : List String) : List String :=
  if place == ["/"] then place
  else if place.all (· == "..") then place ++ [".."]
  else place.dropLast

/-- Puts something at a place. -/
def put (t : Tree) (place : List String) (node : Node) : Tree :=
  { nodes := t.nodes.filter (fun n => n.1 != place) ++ [(place, node)] }

/-- The place names lead to from another place; every name but the last must be that of a
directory, and two points lead up. -/
def resolveFrom (t : Tree) (place : List String) : List String → Except FaultKind (List String)
  | [] => .ok place
  | name :: rest =>
    match t.node? place with
    | none => .error .notFound
    | some (.file _) => .error .notDirectory
    | some .directory =>
      if name == ".." then resolveFrom t (above place) rest
      else resolveFrom t (place ++ [name]) rest

/-- The place a path leads to. -/
def resolve (t : Tree) (p : Path) : Except FaultKind (List String) :=
  if p.names.any (·.toList.contains '\x00') then .error .nullCharacter
  else t.resolveFrom (if p.isAbsolute then ["/"] else []) p.names

/-- What stands at a path. -/
def at? (t : Tree) (p : Path) : Option Node :=
  match t.resolve p with
  | .ok place => t.node? place
  | .error _ => none

/-- Whether anything stands at a path. -/
def exists? (t : Tree) (p : Path) : Bool :=
  (t.at? p).isSome

/-- The bytes of the file at a path. -/
def readBytes (t : Tree) (p : Path) : Except Fault (List UInt8) :=
  match t.resolve p with
  | .error kind => .error ⟨kind, p.text⟩
  | .ok place =>
    match t.node? place with
    | some (.file bytes) => .ok bytes
    | some .directory => .error ⟨.isDirectory, p.text⟩
    | none => .error ⟨.notFound, p.text⟩

/-- The tree with a file written at a path. -/
def writeBytes (t : Tree) (p : Path) (bytes : List UInt8) : Except Fault Tree :=
  match t.resolve p with
  | .error kind => .error ⟨kind, p.text⟩
  | .ok place =>
    match t.node? place with
    | some .directory => .error ⟨.isDirectory, p.text⟩
    | _ => .ok (t.put place (.file bytes))

/-- The tree with a directory made at a path whose parent must be there; one that is there
already is kept. -/
def makeOne (t : Tree) (p : Path) : Except Fault Tree :=
  match t.resolve p with
  | .error kind => .error ⟨kind, p.text⟩
  | .ok place =>
    match t.node? place with
    | some .directory => .ok t
    | some (.file _) => .error ⟨.exists, p.text⟩
    | none => .ok (t.put place .directory)

/-- The tree with directories made for the first names of a path, one after the other. -/
def makeEach (t : Tree) (p : Path) : List Nat → Except Fault Tree
  | [] => .ok t
  | n :: rest => do
    makeEach (← t.makeOne { p with names := p.names.take n }) p rest

/-- The tree with a directory made at a path, and the missing ones that lead to it. A path through
a file is refused as a whole. -/
def makeDirectories (t : Tree) (p : Path) : Except Fault Tree :=
  match t.makeOne p with
  | .error ⟨.notFound, _⟩ => t.makeEach p ((List.range p.names.length).map (· + 1))
  | outcome => outcome

end Tree

/-- A text file that could not be read. -/
inductive TextFault where
  | fault (fault : Fault)
  | encoding (error : Text.Utf8Error)
  deriving DecidableEq, Repr

/-- The text of the file at a path, with line ends made line feeds. -/
def Tree.readText (t : Tree) (p : Path) : Except TextFault String := do
  let bytes ← (t.readBytes p).mapError .fault
  let cs ← (Text.decodeUtf8 bytes).mapError .encoding
  return String.ofList (Text.plainLines cs)

/-- The tree with a text file written at a path. -/
def Tree.writeText (t : Tree) (p : Path) (s : String) : Except Fault Tree :=
  t.writeBytes p s.toUTF8.toList

end DtoForge.Files
