import DtoForge.Json.Basic

/-! # Archives — files under their names

An archive holds compressed entries in order. The name of an entry ends before a null character,
and no entry is without a name. -/

namespace DtoForge.Packaging

/-- How an entry is compressed. -/
inductive Compression where
  | deflate
  deriving DecidableEq, Repr

/-- The number of a compression in archives. -/
def Compression.number : Compression → Nat
  | .deflate => 8

/-- One entry of an archive. -/
structure ArchiveEntry where
  name : String
  text : String
  compression : Compression := .deflate
  deriving DecidableEq, Repr

/-- An archive. -/
abbrev Archive := List ArchiveEntry

/-- Why files make no archive. -/
inductive ArchiveError where
  /-- A file has no name. -/
  | unnamed
  deriving DecidableEq, Repr

/-- The wording of a refusal. -/
def ArchiveError.message : ArchiveError → String
  | .unnamed => "string index out of range"

/-- The name of an entry. -/
def entryName (name : String) : String :=
  String.ofList (name.toList.takeWhile (· != '\x00'))

/-- The entry of a file. -/
def entryOf (file : String × String) : Except ArchiveError ArchiveEntry :=
  let name := entryName file.1
  if name.isEmpty then .error .unnamed else .ok { name, text := file.2 }

/-- The archive of files. -/
def archiveOf (files : Entries String String) : Except ArchiveError Archive :=
  files.mapM entryOf

end DtoForge.Packaging
