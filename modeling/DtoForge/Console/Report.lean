import DtoForge.Files.Tree
import DtoForge.Loading.Collection
import DtoForge.Log.Setup
import DtoForge.Packaging.Archive
import DtoForge.Packaging.Render
import DtoForge.Registry

/-! # Reports — what a command shows and leaves behind

Everything a command prints is an item, and everything it writes is kept with its contents. A
failure is either reported, which ends the command with exit code 1, or it is one the command does
not answer for. -/

namespace DtoForge.Console

/-- One printed item. Texts may hold style marks in square brackets. -/
inductive Item where
  | text (text : String)
  | table (title : String) (columns : List String) (rows : List (List String))
  | panel (text : String) (title : Option String)
  | code (text : String) (language : String)
  deriving DecidableEq, Repr

/-- What was written at a place. -/
inductive Content where
  | text (text : String)
  | archive (archive : Packaging.Archive)
  | directory
  deriving DecidableEq, Repr

/-- Something written, with its path. -/
structure Written where
  path : Files.Path
  content : Content
  deriving DecidableEq, Repr

/-- Why a command fails. -/
inductive CommandError where
  /-- The roles name something else than roles. -/
  | roles (value : String)
  /-- No object has one of the names. -/
  | noObjects (wanted : List String)
  /-- The options file cannot be used. -/
  | configuration (cause : ConfigError)
  /-- An object of several could not be generated. -/
  | preview (cause : GenerationError)
  /-- The archive cannot be written. -/
  | unwritable (path : String) (cause : Files.Fault)
  | load (cause : LoadError)
  | registry (cause : RegistryError)
  | generation (cause : GenerationError)
  /-- A directory or file cannot be written. -/
  | output (cause : Files.Fault)
  /-- An endpoint has the wrong shape. -/
  | shape (cause : ShapeError)
  | archive (cause : Packaging.ArchiveError)
  | level (cause : LevelError)
  deriving DecidableEq, Repr

namespace CommandError

/-- The wording of a failure. -/
def message : CommandError → String
  | .roles value =>
    "Invalid --roles value '" ++ value ++ "': use request and/or response"
  | .noObjects wanted => "No objects match: " ++ String.intercalate ", " wanted
  | .configuration cause => "Configuration error: " ++ cause.message
  | .preview cause => cause.message
  | .unwritable path cause =>
    if cause.isReported then "Failed to write " ++ path ++ ": " ++ cause.message else cause.message
  | .load cause => cause.message
  | .registry cause => cause.message
  | .generation cause => cause.message
  | .output cause => cause.message
  | .shape cause => cause.message
  | .archive cause => cause.message
  | .level cause => cause.message

/-- The mark in front of a reported failure; a failure without one is not answered for. -/
def mark? : CommandError → Option String
  | .roles _ | .noObjects _ | .preview _ => some "[red]✗ Error:[/red] "
  | .unwritable _ cause => if cause.isReported then some "[red]✗ Error:[/red] " else none
  | .configuration cause =>
    if cause.isConfiguration then some "[red]✗ Error:[/red] " else none
  | .load cause =>
    if cause.isExpected then some "[red]✗ Failed to load input:[/red] " else none
  | .output cause =>
    if cause.kind = .notFound then some "[red]✗ Failed to load input:[/red] " else none
  | .registry cause => if cause.isExpected then some "[red]✗[/red] " else none
  | .generation cause =>
    if cause.isExpected then some "[red]✗ Code generation failed:[/red] " else none
  | .shape _ | .archive _ | .level _ => none

/-- The printed line of a reported failure. -/
def report? (e : CommandError) : Option String :=
  e.mark?.map (· ++ e.message)

end CommandError

end DtoForge.Console
