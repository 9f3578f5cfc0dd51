import DtoForge.Extraction
import DtoForge.Generator.Generate
import DtoForge.Packaging.Order

/-! # Rendering — the files of several objects

The selected objects are generated in dependency order, each into a file of its own. An object whose
file name repeats an earlier one replaces that file, and the first object that cannot be generated
ends the work. -/

namespace DtoForge.Packaging

/-- The files generated so far, and the records written on the way. -/
structure Rendering where
  files : Entries String String := []
  records : List LogRecord := []

namespace Rendering

/-- Adds records. -/
def note (r : Rendering) (records : List LogRecord) : Rendering :=
  { r with records := r.records ++ records }

/-- The record of a file name that came up before. -/
def repeated (name : String) : LogRecord :=
  ⟨.warning, Logger.packaging, name ++ " generated twice; keeping the last one"⟩

/-- Adds a file at the end. A file of the same name is given up. -/
def add (r : Rendering) (name code : String) : Rendering :=
  if r.files.has name then
    { files := r.files.erase name ++ [(name, code)], records := r.records ++ [repeated name] }
  else { r with files := r.files ++ [(name, code)] }

end Rendering

/-- Rendering in steps. What was rendered before a failure stays in the state. -/
abbrev Rendered := ExceptT GenerationError (StateM Rendering)

/-- The name of the file of an object. -/
def fileName (g : Generator) (d : ObjectDefinition) : String :=
  d.name ++ g.target.extension

/-- The record of an object that ends the work. -/
def aborted (d : ObjectDefinition) : LogRecord :=
  ⟨.error, Logger.packaging, "Aborting archive: " ++ d.name ++ " could not be generated"⟩

/-- Renders one object. -/
def renderOne (g : Generator) (d : ObjectDefinition) : Rendered Unit := do
  modify (·.note (g.records d.schema (.str d.name)))
  match g.generate d.schema (.str d.name) with
  | .ok code => modify (·.add (fileName g d) code)
  | .error e =>
    if e.isExpected then modify (·.note [aborted d])
    throw e

/-- Renders the selected objects in dependency order. -/
def render (g : Generator) (objects : List ObjectDefinition) (selected : List String) :
    Except GenerationError Unit × Rendering :=
  let wanted := (orderByDependency objects).filter fun d => selected.contains d.id
  ((wanted.forM (renderOne g)).run.run { records := cycleRecords objects })

/-- The identifiers that the elements of a value select. Elements that are no texts select
nothing. -/
def selection (v : Json) : Except ShapeError (List String) := do
  let items ← v.elements
  items.forM Json.checkElement
  return (items.filterMap Json.text?).map RawText.legible

/-! ## Examples -/

/-- The files for an example document, with a name for its root. Of files with one name the last is
kept, in the place of the first. -/
def exampleFiles (g : Generator) (value : Json) (base : String) :
    Except GenerationError (Entries String String) := do
  let objects := orderByDependency (Extraction.ofValue value base)
  let files ← objects.mapM fun d => do return (fileName g d, ← g.generate d.schema (.str d.name))
  return Entries.ofPairs files

/-- The records written while the files for an example document are generated. -/
def exampleRecords (g : Generator) (value : Json) (base : String) : List LogRecord :=
  let objects := Extraction.ofValue value base
  cycleRecords objects ++
    (orderByDependency objects).flatMap fun d => g.records d.schema (.str d.name)

end DtoForge.Packaging
