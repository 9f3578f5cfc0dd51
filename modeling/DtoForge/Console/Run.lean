import DtoForge.Console.Command
import DtoForge.Console.Report
import DtoForge.Packaging.Zip

/-! # Running commands

A command works on a file tree and on the reply to its one request, if it makes one. Its run is a
value: what it printed and wrote, the records on the way, and how it ended. -/

namespace DtoForge.Console

/-- The state of a run. -/
structure Session where
  files : Files.Tree
  printed : List Item := []
  written : List Written := []
  records : List LogRecord := []

/-- Steps of a run. What was done before a failure stays done. -/
abbrev Running := ExceptT CommandError (StateM Session)

/-- Prints an item. -/
def print (item : Item) : Running Unit :=
  modify fun s => { s with printed := s.printed ++ [item] }

/-- Prints a line. -/
def say (line : String) : Running Unit :=
  print (.text line)

/-- Keeps records. -/
def note (records : List LogRecord) : Running Unit :=
  modify fun s => { s with records := s.records ++ records }

/-- Goes on with a result, or fails. -/
def orFail {ε α : Type} (failure : ε → CommandError) (x : Except ε α) : Running α :=
  ExceptT.mk (pure (x.mapError failure))

/-- Changes the file tree by writing something at a path. -/
def write (path : Files.Path) (content : Content) (failure : Files.Fault → CommandError)
    (change : Files.Tree → Except Files.Fault Files.Tree) : Running Unit := do
  let files ← orFail failure (change (← get).files)
  modify fun s => { s with files, written := s.written ++ [{ path, content }] }

/-! ## Input -/

/-- Loads the collection of the input. -/
def loadInput (reply : Http.Reply) (input : InputArguments) : Running Collection := do
  let origin : Loading.Origin :=
    { file := input.file, url := input.url, environment := input.environment }
  let loaded ← orFail .load ((Loading.load (← get).files reply origin).run.run 0).1
  say ("📄 Loaded: " ++ loaded.source ++ " (" ++
    toString loaded.collection.endpoints.length ++ " endpoints)")
  return loaded.collection

/-- The roles a text names, between commas. -/
def rolesOf (text : String) : Except ShapeError (List Role) :=
  ((Text.split ',' text).map Text.trim |>.filter (· != "")).mapM fun name =>
    Role.ofJson (.str name.lowered)

/-- Extracts the objects of a collection, and the bodies that were skipped. -/
def extractObjects (collection : Collection) (roles : String) :
    Running (List ObjectDefinition × List Extraction.BadBody) := do
  let wanted ← orFail (fun _ => .roles roles) (rolesOf roles)
  let (outcome, run) := Extraction.run collection.endpoints wanted
  note run.records
  orFail .shape outcome
  return (run.objects, run.refused)

/-- Reports the bodies that were skipped. -/
def sayRefused (refused : List Extraction.BadBody) : Running Unit := do
  unless refused.isEmpty do
    say ("\n[yellow]⚠️  " ++ toString refused.length ++ " bodies skipped:[/yellow]")
    refused.forM fun b => say ("  [yellow]•[/yellow] " ++ b.message)

/-- The objects with one of the wanted identifiers or names; all of them if none is wanted. -/
def select (objects : List ObjectDefinition) (wanted : List String) :
    Except CommandError (List ObjectDefinition) :=
  if wanted.isEmpty then .ok objects
  else
    match objects.filter fun d => wanted.contains d.id || wanted.contains d.name with
    | [] => .error (.noObjects wanted)
    | selected => .ok selected

/-! ## Generators -/

/-- An entry of overrides. -/
def entryOf (key : String) (v : Json) : RawText × Json :=
  (key, v)

/-- An entry that is there only for a text that is not empty. -/
def entryOfText (key text : String) : Entries Json :=
  if text.isEmpty then [] else [entryOf key (.str text)]

/-- The options that the arguments override. -/
def GenerationArguments.overrides (a : GenerationArguments) : Entries Json :=
  entryOfText "naming_convention" a.naming ++
    (a.namePrefix.map fun p => entryOf "prefix" (.str p)).toList ++
    (a.nameSuffix.map fun s => entryOf "suffix" (.str s)).toList ++
    entryOfText "package_name" a.packageName ++
    (if a.noAnnotations then [entryOf Feature.annotations.key (.bool false)] else []) ++
    (if a.noNullChecks then [entryOf Feature.nullChecks.key (.bool false)] else []) ++
    a.features.map (fun f => entryOf f.key (.bool true)) ++
    (if a.style.isEmpty then [] else [entryOf "custom" (.object [("style", .str a.style)])])

/-- How the options are chosen: complete when a file is named, as overrides otherwise. -/
def choiceOf (a : GenerationArguments) : Running Registry.Choice := do
  if a.config.isEmpty then return .given (.object a.overrides)
  else
    let key ← orFail .registry (Registry.builtin.resolve a.language)
    let options ← orFail .configuration
      (Options.load (← get).files key (.object a.overrides) a.config)
    return .exactly options

/-- The generator for the arguments. -/
def generatorFor (a : GenerationArguments) : Running Generator := do
  let choice ← choiceOf a
  let (target, options) ← orFail .registry
    (Registry.builtin.create (← get).files a.language choice)
  let g : Generator := { target, options }
  note g.creationRecords
  return g

/-! ## Commands -/

/-- The row of a language in the list. -/
def languageRow (i : Registry.Info) : List String :=
  let aliases := if i.aliases.isEmpty then "[dim]none[/dim]" else String.intercalate ", " i.aliases
  let target := i.described.getD i.generator
  let features := (Feature.all.filter fun f => target.features.contains f).map Feature.word
  ["🔧 " ++ target.displayName, target.extension, i.generator.generatorName, aliases,
    String.intercalate ", " features]

/-- Lists the languages. -/
def listLanguages : Running Unit := do
  let infos ← orFail .registry (Registry.builtin.languages.mapM Registry.builtin.info)
  say ""
  print (.table "📋 Supported Languages"
    ["Language", "Extension", "Generator Class", "Aliases", "Options"] (infos.map languageRow))
  say ""
  print (.panel
    ("[bold]Usage:[/bold] mockapi-dtogen generate [dim]collection.json[/dim] " ++
      "--language [cyan]LANGUAGE[/cyan]")
    (some "💡 Quick Start"))

/-- The row of an object in the list. Dependencies are shown by name where it is known. -/
def objectRow (objects : List ObjectDefinition) (d : ObjectDefinition) : List String :=
  let nameOf (id : String) : String :=
    match objects.reverse.find? fun o => o.id == id with
    | some o => o.name
    | none => id
  [d.id, d.name, d.role.word, d.source.method ++ " " ++ d.source.path,
    toString d.schema.properties.length, String.intercalate ", " (d.dependencies.map nameOf)]

/-- Shows the extracted objects. -/
def showObjects (reply : Http.Reply) (input : InputArguments) : Running Unit := do
  let collection ← loadInput reply input
  let (objects, refused) ← extractObjects collection input.roles
  if objects.isEmpty then say "[yellow]⚠️ No objects found in endpoint bodies[/yellow]"
  else
    print (.table ("📦 Objects in " ++ collection.name.display)
      ["Id", "Name", "Role", "Endpoint", "Fields", "Depends On"]
      (objects.map (objectRow objects)))
  sayRefused refused

/-- The table of what is told of a generated type. -/
def metadataTable (m : Generator.Metadata) : Item :=
  .table "📊 Generation Metadata" ["Property", "Value"]
    [["Language", m.language], ["File Extension", m.extension], ["Type Name", m.typeName],
      ["Field Count", toString m.fieldCount]]

/-- Previews an object, or fails. -/
def previewObject (g : Generator) (d : ObjectDefinition) : Running Generator.Preview := do
  note (g.previewRecords d.schema (.str d.name))
  orFail (fun e => if e.isExpected then .preview e else .generation e)
    (g.preview d.schema (.str d.name))

/-- Writes the code of an object below a directory. -/
def saveObject (directory : Files.Path) (g : Generator) (d : ObjectDefinition) (code : String) :
    Running Unit := do
  let path := directory.below (Packaging.fileName g d)
  write path (.text code) .output fun t => t.writeText path code
  say ("[green]✓[/green] " ++ d.name ++ " saved to [cyan]" ++ path.text ++ "[/cyan]")

/-- Shows the code of an object. -/
def showObject (g : Generator) (d : ObjectDefinition) (code : String) : Running Unit := do
  print (.panel ("📄 " ++ Packaging.fileName g d) none)
  print (.code code g.target.key)

/-- Generates objects in order, shown or saved. Gives the warnings, each once. -/
def generateEach (g : Generator) (directory : Option Files.Path) (verbose : Bool)
    (warnings : List String) : List ObjectDefinition → Running (List String)
  | [] => return warnings
  | d :: ds => do
    let preview ← previewObject g d
    match directory with
    | some directory => saveObject directory g d preview.code
    | none => showObject g d preview.code
    if verbose then print (metadataTable preview.metadata)
    generateEach g directory verbose
      (preview.warnings.foldl (fun ws w => if ws.contains w then ws else ws ++ [w]) warnings) ds

/-- The directory of a name, made if it is missing; none for the empty name. -/
def openDirectory (name : String) : Running (Option Files.Path) := do
  if name.isEmpty then return none
  else
    let path := Files.Path.ofText name
    write path .directory .output fun t => t.makeDirectories path
    return some path

/-- Generates the wanted objects. -/
def generateObjects (reply : Http.Reply) (input : InputArguments) (a : GenerationArguments)
    (wanted : List String) (output : String) (verbose : Bool) : Running Unit := do
  let collection ← loadInput reply input
  let (objects, refused) ← extractObjects collection input.roles
  sayRefused refused
  let selected ← ExceptT.mk (pure (select objects wanted))
  let g ← generatorFor a
  let directory ← openDirectory output
  note (Packaging.cycleRecords selected)
  let warnings ← generateEach g directory verbose [] (Packaging.orderByDependency selected)
  unless warnings.isEmpty do
    say "\n[yellow]⚠️  Warnings:[/yellow]"
    warnings.forM fun w => say ("  [yellow]•[/yellow] " ++ w)

/-- Writes an archive of the wanted objects. -/
def archiveObjects (reply : Http.Reply) (input : InputArguments) (a : GenerationArguments)
    (wanted : List String) (output : String) : Running Unit := do
  let collection ← loadInput reply input
  let (objects, refused) ← extractObjects collection input.roles
  sayRefused refused
  let selected ← ExceptT.mk (pure (select objects wanted))
  let g ← generatorFor a
  let (outcome, rendering) := Packaging.render g objects (selected.map (·.id))
  note rendering.records
  orFail .generation outcome
  let archive ← orFail .archive (Packaging.archiveOf rendering.files)
  let path := Files.Path.ofText output
  write path (.archive archive) (.unwritable path.text) fun t =>
    t.writeBytes path (Packaging.Zip.bytes archive)
  say ("[green]✓[/green] " ++ toString selected.length ++ " objects archived to [cyan]" ++
    path.text ++ "[/cyan]")

/-- Does what a command asks for. -/
def perform (reply : Http.Reply) : Command → Running Unit
  | .languages => listLanguages
  | .extract input => showObjects reply input
  | .generate input a wanted directory verbose =>
    generateObjects reply input a wanted directory verbose
  | .zip input a wanted archive => archiveObjects reply input a wanted archive

/-! ## Runs -/

/-- How a run ends. -/
inductive Ending where
  /-- There was nothing to run. -/
  | stopped (stop : Stop Key)
  | finished
  /-- A failure was reported. -/
  | reported (cause : CommandError)
  /-- A failure that is not answered for. -/
  | failed (cause : CommandError)
  deriving DecidableEq, Repr

/-- The exit code of an ending. -/
def Ending.exitCode : Ending → Nat
  | .stopped stop => stop.exitCode
  | .finished => 0
  | .reported _ | .failed _ => 1

/-- A run: how it ended and what it left. -/
structure Run where
  ending : Ending
  session : Session

/-- Runs a command under a log set-up. A failure that is answered for is printed. -/
def runCommand (files : Files.Tree) (reply : Http.Reply) (setup : LogSetup) (command : Command) :
    Run :=
  let (outcome, session) := (perform reply command).run.run { files }
  let session := { session with records := session.records.filter setup.shows }
  match outcome with
  | .ok () => { ending := .finished, session }
  | .error cause =>
    match cause.report? with
    | some line =>
      { ending := .reported cause, session := { session with printed := session.printed ++ [.text line] } }
    | none => { ending := .failed cause, session }

/-- Runs a command line. The records shown by default are those of a level. -/
def run (files : Files.Tree) (reply : Http.Reply) (words : List String)
    (level : Option String := none) : Run :=
  match Invocation.ofWords words with
  | .error stop => { ending := .stopped stop, session := { files } }
  | .ok invocation =>
    match LogSetup.of (((invocation.logLevel <|> level).map Json.str).getD .null) with
    | .error cause => { ending := .failed (.level cause), session := { files } }
    | .ok setup => runCommand files reply setup invocation.command

end DtoForge.Console
