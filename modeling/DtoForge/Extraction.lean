import DtoForge.Endpoint
import DtoForge.Log
import DtoForge.Naming.Casing
import DtoForge.Schema.Infer
import DtoForge.Json.Reader

/-! # Extraction — named objects out of example bodies

Every body that is a JSON object gives one named object, and every object with properties that it
holds, directly or as the item of an array, is hoisted: it becomes an object of its own and is
referred to by name. Objects of one endpoint and role with the same structure are hoisted once. The
objects stand in order of discovery, each before the objects it holds. -/

namespace DtoForge.Extraction

/-! ## Hoisting -/

/-- What tells whether a structure was hoisted before. -/
structure SeenKey where
  endpointId : String
  role : Role
  fingerprint : String
  deriving DecidableEq, Repr

/-- An object where it stands: the body it comes from, the base of its name, and its parts. -/
structure Occurrence where
  source : ObjectSource
  base : String
  properties : List (RawText × Schema)
  required : List Json

namespace Occurrence

/-- The schema of an object where it stands. -/
def schema (o : Occurrence) : Schema :=
  .object o.properties o.required none

/-- What tells the structure of an object among those of its endpoint and role. -/
def key (o : Occurrence) : SeenKey :=
  { endpointId := o.source.endpointId, role := o.source.role, fingerprint := o.schema.fingerprint }

end Occurrence

/-- The objects hoisted so far, the number of identifiers given out, and a place for every object
in order of discovery. A place is empty while what its object holds is being hoisted. -/
structure Table where
  seen : List (SeenKey × ObjectDefinition) := []
  counter : Nat := 0
  places : List (Option ObjectDefinition) := []

namespace Table

/-- The object hoisted under a key. -/
def find? (t : Table) (key : SeenKey) : Option ObjectDefinition :=
  (t.seen.find? fun s => s.1 == key).map (·.2)

/-- Gives out one identifier and reserves the next place. -/
def reserve (t : Table) : Table :=
  { t with counter := t.counter + 1, places := t.places ++ [none] }

/-- Fills a reserved place and remembers the object under its key, where it replaces an object
remembered before. -/
def fill (t : Table) (place : Nat) (key : SeenKey) (definition : ObjectDefinition) : Table :=
  { t with
    seen := (t.seen.filter fun s => s.1 != key) ++ [(key, definition)]
    places := t.places.set place (some definition) }

/-- The objects in order of discovery. -/
def objects (t : Table) : List ObjectDefinition :=
  t.places.filterMap id

end Table

/-- What a walk over properties gives: the properties with their references, and the identifiers
of the objects they refer to. -/
structure Walk where
  table : Table
  properties : List (RawText × Schema) := []
  dependencies : List String := []

/-- What hoisting one object gives. -/
structure Hoisted where
  table : Table
  definition : ObjectDefinition

/-- The identifier of an object: where it was found, its structure, and a running number. -/
def objectId (key : SeenKey) (n : Nat) : String :=
  key.endpointId ++ "_" ++ key.role.word ++ "_" ++
    String.ofList (key.fingerprint.toList.take 12) ++ "_" ++ toString n

/-- The name of an object: a base name and the role it comes from. -/
def objectName (base : String) (role : Role) : String :=
  base ++ role.suffix

/-- The base name of the object under a property; the items of an array take the singular. -/
def nestedBase (name : String) (plural : Bool) : String :=
  let base := Naming.orElse (Naming.pascal name) "Item"
  if plural then Naming.singular base else base

/-- Adds an identifier that is not listed yet. -/
def addDependency (ids : List String) (id : String) : List String :=
  if ids.contains id then ids else ids ++ [id]

/-- Completes an object when what it holds has been hoisted by `inner`: the object gets the number
that was next in `table` and the place that was reserved there. -/
def Occurrence.complete (o : Occurrence) (table : Table) (inner : Walk) : Hoisted :=
  let definition : ObjectDefinition :=
    { id := objectId o.key table.counter, name := objectName o.base o.source.role
      schema := .object inner.properties o.required none
      source := o.source, dependencies := inner.dependencies }
  { table := inner.table.fill table.places.length o.key definition, definition }

/-- Hoists an object, unless its structure was hoisted before. `walk` hoists what the object
holds. -/
def Occurrence.hoist (o : Occurrence) (walk : Table → Walk) (table : Table) : Hoisted :=
  match table.find? o.key with
  | some definition => { table, definition }
  | none => o.complete table (walk table.reserve)

/-- The walk extended by one property whose object was hoisted. -/
def Walk.refer (w : Walk) (name : RawText) (property : Schema) (h : Hoisted) : Walk :=
  { table := h.table
    properties := w.properties ++ [(name, property)]
    dependencies := addDependency w.dependencies h.definition.id }

/-- The walk extended by one property that stays as it is. -/
def Walk.keep (w : Walk) (name : RawText) (property : Schema) : Walk :=
  { w with properties := w.properties ++ [(name, property)] }

/-- The walk extended by one property. An object with properties is hoisted, on its own or as the
item of an array; `inner` hoists what it holds. Everything else stays as it is. -/
def Walk.step (source : ObjectSource) (name : RawText) (property : Schema)
    (inner : Table → Walk) (w : Walk) : Walk :=
  match property with
  | .object (p :: ps) required _ =>
    let base := nestedBase name.legible false
    let o : Occurrence := { source, base, properties := p :: ps, required }
    let h := o.hoist inner w.table
    w.refer name (.object (p :: ps) required (some (.str h.definition.name))) h
  | .array (.object (p :: ps) required _) _ =>
    let base := nestedBase name.legible true
    let o : Occurrence := { source, base, properties := p :: ps, required }
    let h := o.hoist inner w.table
    w.refer name (.array (.object (p :: ps) required (some (.str h.definition.name))) none) h
  | _ => w.keep name property

mutual

/-- Walks over the properties of a schema, or of the items of an array. -/
def walk (source : ObjectSource) : Schema → Table → Walk
  | .object ps _ _, table => walkFrom source ps { table }
  | .array items _, table => walk source items table
  | .leaf .., table => { table }

/-- Walks over properties from the left. -/
def walkFrom (source : ObjectSource) : List (RawText × Schema) → Walk → Walk
  | [], w => w
  | (name, property) :: rest, w =>
    walkFrom source rest (w.step source name property (walk source property))

end

/-- Hoists an object with all that it holds. -/
def Occurrence.extract (o : Occurrence) (table : Table) : Hoisted :=
  o.hoist (walk o.source o.schema) table

/-! ## Bodies -/

/-- A body that is no JSON document. -/
structure BadBody where
  endpointId : String
  path : Json
  role : Role
  method : String
  reason : Json.ReadError

/-- The wording of a refused body. -/
def BadBody.message (b : BadBody) : String :=
  "Invalid JSON in " ++ b.role.word ++ " body of " ++ b.method ++ " " ++ b.path.display ++ ": " ++
    b.reason.message

/-- The record of a refused body. -/
def BadBody.record (b : BadBody) : LogRecord :=
  ⟨.warning, Logger.extraction, b.message ++ "; skipping"⟩

/-- What reading one body gives. -/
inductive Reading where
  /-- There is no body, a blank one, or one that is no object. -/
  | nothing
  /-- The body is no JSON document. -/
  | refused (body : BadBody)
  /-- The body is an object. -/
  | object (root : Occurrence)

/-- Reads one body. A body that holds an integer with too many digits ends the run, and only the
path of an endpoint whose body is an object is looked at. -/
def readBody (e : Endpoint) (role : Role) : Except ShapeError Reading :=
  match e.bodyFor role with
  | .null => .ok .nothing
  | .str body =>
    if Unicode.isBlankText body.legible then .ok .nothing
    else
      match Json.read body with
      | .error (.misread reason) =>
        .ok (.refused { endpointId := e.id, path := e.path, role, method := e.method, reason })
      | .error (.longInteger digits) => .error (.longInteger digits)
      | .ok value =>
        match Schema.infer value with
        | .object properties required _ => do
          let path ← e.path.textFor "split"
          return .object
            { source := { endpointId := e.id, path, method := e.method, role }
              base := Naming.pathTypeName path, properties, required }
        | _ => .ok .nothing
  | v => .error (.noMember v.kind "strip")

/-- The state of a run: the table and the refused bodies. -/
structure Run where
  table : Table := {}
  refused : List BadBody := []

namespace Run

/-- The objects of a run in order of discovery. -/
def objects (r : Run) : List ObjectDefinition :=
  r.table.objects

/-- The records of a run. -/
def records (r : Run) : List LogRecord :=
  r.refused.map BadBody.record

/-- The run after one more reading. A body that is no document is noted and skipped. -/
def take (r : Run) : Reading → Run
  | .nothing => r
  | .refused body => { r with refused := r.refused ++ [body] }
  | .object root => { r with table := (root.extract r.table).table }

end Run

/-- The wanted bodies of endpoints, responses before requests. -/
def wantedBodies (endpoints : List Endpoint) (roles : List Role) : List (Endpoint × Role) :=
  endpoints.flatMap fun e => ([.response, .request].filter roles.contains).map fun role => (e, role)

/-- Reads bodies in order, up to the first that cannot be read. What was found before a failure
stays in the state. -/
def readBodies : List (Endpoint × Role) → Run → Except ShapeError Unit × Run
  | [], r => (.ok (), r)
  | (e, role) :: rest, r =>
    match readBody e role with
    | .ok reading => readBodies rest (r.take reading)
    | .error cause => (.error cause, r)

/-- A run over endpoints: the answer and the state it leaves. -/
def run (endpoints : List Endpoint) (roles : List Role := [.response, .request]) :
    Except ShapeError Unit × Run :=
  readBodies (wantedBodies endpoints roles) {}

/-! ## Single documents -/

/-- The objects of one document; a document that is no object gives none. -/
def ofValue (value : Json) (base : String) (role : Role := .response) : List ObjectDefinition :=
  let source : ObjectSource :=
    { endpointId := "inline", path := "/" ++ base, method := "GET", role }
  match Schema.infer value with
  | .object properties required _ =>
    let root : Occurrence :=
      { source, base := Naming.orElse (Naming.pascal base) "Root", properties, required }
    (root.extract {}).table.objects
  | _ => []

end DtoForge.Extraction
