import DtoForge.Schema.Document

/-! # Objects — named structures that are generated on their own

An object definition is a named object schema with the place it comes from and the identifiers of
the objects it refers to. -/

namespace DtoForge

/-- Whether an object comes from a request or a response body. -/
inductive Role where
  | request | response
  deriving DecidableEq, Repr

namespace Role

/-- The word for a role. -/
def word : Role → String
  | .request => "request"
  | .response => "response"

/-- What the names of a role's objects end in. -/
def suffix : Role → String
  | .request => "Request"
  | .response => "Response"

/-- The role a value names. -/
def ofJson (v : Json) : Except ShapeError Role :=
  if v == .str "request" then .ok .request
  else if v == .str "response" then .ok .response
  else .error (.notMemberOf v "ObjectRole")

/-- The roles that the elements of a value name. -/
def listOfJson (v : Json) : Except ShapeError (List Role) := do
  (← v.elements).mapM ofJson

end Role

/-- Where an object was found. -/
structure ObjectSource where
  endpointId : String
  path : String
  method : String
  role : Role
  deriving DecidableEq, Repr

/-- A named object. Its schema describes an object. -/
structure ObjectDefinition where
  id : String
  name : String
  schema : Schema
  source : ObjectSource
  dependencies : List String := []
  isObject : schema.isObject = true := by rfl

namespace ObjectDefinition

/-- The role of the body in which the object was found. -/
def role (d : ObjectDefinition) : Role :=
  d.source.role

/-- Why parts do not make an object definition. -/
inductive BuildError where
  /-- The schema describes no object. -/
  | notObject (name : String) (kind : SchemaKind)
  /-- A part has the wrong shape. -/
  | shape (cause : ShapeError)
  deriving DecidableEq, Repr

/-- The wording of a refusal. -/
def BuildError.message : BuildError → String
  | .notObject name kind =>
    "Object definition '" ++ name ++ "' requires an object schema, got " ++ kind.word
  | .shape cause => cause.message

/-- The object definition made of parts; dependencies are the elements of a value. -/
def build (id name : String) (schema : Schema) (source : ObjectSource) (dependencies : Json) :
    Except BuildError ObjectDefinition :=
  if h : schema.isObject = true then
    match dependencies.elements with
    | .ok ids => .ok { id, name, schema, source, dependencies := ids.map Json.display, isObject := h }
    | .error cause => .error (.shape cause)
  else .error (.notObject name schema.kind)

end ObjectDefinition

end DtoForge
