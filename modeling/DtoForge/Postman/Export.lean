import DtoForge.Json.Shape

/-! # Exports — collections and environments of the Postman tool

An exported document is recognised by its parts: a collection by its information block and its
items, an environment by its scope and its variables. -/

namespace DtoForge.Postman

/-- The host of the documents that describe collections. -/
def schemaHost : String := "schema.getpostman.com"

/-- Whether an information block gives a name and the description of collections. -/
def isInfo (info : Json) : Bool :=
  match info with
  | .object es =>
    match Json.valueOf es "name", Json.valueOf es "schema" with
    | .str _, .str schema => Text.isSubtext schemaHost schema.legible
    | _, _ => false
  | _ => false

/-- Whether a document is an exported collection. -/
def isCollection (data : Json) : Bool :=
  match data with
  | .object es => isInfo (Json.valueOf es "info") && (Json.valueOf es "item").list?.isSome
  | _ => false

/-- A variable of an environment. -/
structure Variable where
  key : RawText
  value : RawText
  enabled : Bool

/-- The variable of a document, if it is one. -/
def Variable.ofJson? (v : Json) : Option Variable :=
  match v with
  | .object es =>
    match Json.valueOf es "key", Json.valueOf es "value", Json.valueOf es "enabled" with
    | .str key, .str value, .bool enabled => some { key, value, enabled }
    | _, _, _ => none
  | _ => none

/-- The variables of an exported environment; none if the document is no environment. -/
def variables? (data : Json) : Option (List Variable) :=
  match data with
  | .object es =>
    match Json.valueOf es "values", Json.valueOf es "_postman_variable_scope" with
    | .list values, .str (.whole "environment") => values.mapM Variable.ofJson?
    | _, _ => none
  | _ => none

/-- Whether a document is an exported environment. -/
def isEnvironment (data : Json) : Bool :=
  (variables? data).isSome

/-- The values of the enabled variables of an exported environment. -/
def environment? (data : Json) : Option (Entries RawText) :=
  (variables? data).map fun vs =>
    Entries.ofPairs ((vs.filter (·.enabled)).map fun v => (v.key, v.value))

/-- The document of the values of an environment. -/
def environmentJson (environment : Entries RawText) : Json :=
  .object (environment.map fun (k, v) => (k, .str v))

end DtoForge.Postman
